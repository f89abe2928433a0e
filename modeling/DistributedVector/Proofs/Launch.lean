import DistributedVector.Proofs.KernelCache
import DistributedVector.Proofs.Transfer
import DistributedVector.Proofs.Value
import DistributedVector.Vector.Launch

/-!
# Launches compute formulas

The launches of a kernel, one for each shard with elements, store the results of the formula: each
launch reads the shards of the leaves that lie at the same positions, and no launch writes to what a
later one reads, also where the target itself is a leaf.

## Main definitions

* `Vector.Launching` — a target with kernels and leaves that are ready for the launches

## Main results

* `Vector.dispatch_ensures` — afterwards the target holds the results of the formula
-/

namespace DistributedVector

section Scalars

theorem Scalar.toDouble_ne_notConvertible (x : Scalar) : x.toDouble ≠ .error .notConvertible := by
  cases x with
  | int n =>
    simp only [toDouble]
    split <;> exact nofun
  | float x => exact nofun

theorem Scalar.toInteger_ne_notConvertible (x : Scalar) :
    x.toInteger ≠ .error .notConvertible := by
  cases x with
  | int n => exact nofun
  | float x =>
    simp only [toInteger]
    split
    · exact nofun
    · split <;> exact nofun

/-- A number that does not fit an element type can be converted nevertheless. -/
theorem ElementType.encode_ne_notConvertible (t : ElementType) (x : Scalar) :
    t.encode x ≠ .error .notConvertible := by
  unfold encode
  split
  · cases hx : x.toDouble with
    | ok y => exact nofun
    | error e =>
      rintro ⟨⟩
      exact x.toDouble_ne_notConvertible hx
  · cases hx : x.toInteger with
    | ok n =>
      intro h
      by_cases hn : t.InRange n <;> simp [bind, Except.bind, hn] at h <;> cases h
    | error e =>
      rintro ⟨⟩
      exact x.toInteger_ne_notConvertible hx

/-- A scalar of a type with the tag of an element type becomes an element of it. -/
theorem DataType.single_of_token {t : DataType} {e : ElementType} (h : t.token = e.token)
    (x : Scalar) : t.single x = (e.encode x).map fun y => (.element e, y) := by
  cases t with
  | element t =>
    obtain rfl := ElementType.token_injective h
    cases hx : t.encode x <;>
      simp [single, accept, hx, bind, Except.bind, Except.map, pure, Except.pure]
  | foreign t =>
    obtain rfl := ForeignType.eq_swapped_of_token h
    cases hx : e.encode x <;> simp [single, hx, bind, Except.bind, Except.map, pure, Except.pure]

/-- A scalar of a type with the tag of an element type is bound as an element of it. -/
theorem scalarArgument_of_token {t : DataType} {e : ElementType} (h : t.token = e.token)
    (x : Scalar) : scalarArgument x t = (e.encode x).map fun y => .scalar (.element e) y := by
  rw [scalarArgument, DataType.single_of_token h]
  cases e.encode x <;> rfl

end Scalars

/-- The number of threads is not refused, if workgroups have threads. -/
theorem globalSize_ne_error {kind : DeviceClass}
    {computeUnits elements workgroup waves : Int} {e : Fault}
    (h : 1 ≤ workgroup) : globalSize kind computeUnits elements workgroup waves ≠ .error e := by
  cases kind with
  | processor =>
    rw [globalSize, if_neg (by omega)]
    exact nofun
  | graphics => exact nofun

section Leaves

variable {V : Type} {A : Arithmetic V} {m m' : Memory} {d w : Descriptor} {before : List Shard}
  {s : Shard} {after : List Shard}

/-- What the vectors of a formula are in a memory. -/
def Descriptor.look (m : Memory) (d : Descriptor) : Option (ElementType × List Scalar) :=
  some (d.type, d.contents m)

@[simp] theorem atSigned?_natCast {α : Type} (xs : List α) (i : Nat) :
    atSigned? xs (i : Int) = xs[i]? := by simp [atSigned?]

/-- The shard at the same place of a vector that is laid out alike. -/
theorem Descriptor.exists_shard_of_layout (hd : d.shards = before ++ s :: after)
    (h : w.layout = d.layout) : ∃ before' s' after', w.shards = before' ++ s' :: after' ∧
      before'.length = before.length ∧ before'.map (·.length) = before.map (·.length) ∧
      s'.device = s.device ∧ s'.length = s.length := by
  rw [layout, layout, hd, List.map_append, List.map_cons] at h
  obtain ⟨before', rest, hw, hbefore, hrest⟩ := List.map_eq_append_iff.mp h
  obtain ⟨s', after', rfl, hs, -⟩ := List.map_eq_cons_iff.mp hrest
  refine ⟨before', s', after', hw, ?_, ?_, congrArg Prod.fst hs, congrArg Prod.snd hs⟩
  · simpa using congrArg List.length hbefore
  · simpa [Function.comp_def] using congrArg (List.map Prod.snd) hbefore

/-- The element of a vector at a position in one of its shards. -/
theorem Descriptor.Valid.getElem?_contents (hv : d.Valid m) (hd : d.shards = before ++ s :: after)
    {i : Nat} (hi : i < s.length) :
    (d.contents m)[total (before.map (·.length)) + i]? = (s.contents m)[i]? := by
  have hvalid : ShardsValid m d.type d.access (before ++ s :: after) := hd ▸ hv
  have hlength := hvalid.append_left.length_contents
  have hs := hvalid.append_right.head.length_contents
  rw [contents, hd, contentsOf_append, contentsOf_cons, ← hlength,
    List.getElem?_append_right (Nat.le_add_right _ _), Nat.add_sub_cancel_left,
    List.getElem?_append_left (by omega)]

end Leaves

/-- A list of which every entry is computed from its number. -/
theorem mapM_range_eq_some {α : Type} {n : Nat} {g : Nat → Option α} {xs : List α}
    (hlength : xs.length = n) (h : ∀ i, i < n → g i = xs[i]?) :
    (List.range n).mapM g = some xs := by
  subst hlength
  induction xs using List.reverseRecOn with
  | nil => rfl
  | append_singleton xs x ih =>
    rw [List.length_append, List.length_singleton, List.range_succ, List.mapM_append,
      ih fun i hi => ?_]
    · have hlast := h xs.length (by simp)
      simp at hlast
      simp [hlast]
    · rw [h i (by simp; omega), List.getElem?_append_left hi]

namespace Vector

open Descriptor

variable {V : Type} {A : Arithmetic V} {F : Fleet} {m : Memory} {d : Descriptor}
  {f : Formula Descriptor} {kernels : List (Key × CompiledKernel)}

/-- A leaf of a formula is ready to be read while the target is written: it is laid out like the
target, and is the target itself or has no buffer in common with it. -/
structure Readable (m : Memory) (d w : Descriptor) : Prop where
  valid : w.Valid m
  layout : w.layout = d.layout
  apart : w.forget = d.forget ∨ ∀ b ∈ w.buffers, b ∉ d.buffers

/-- A target is ready for the launches of a formula: kernels may write it, there is a kernel for
each of its devices, and the leaves are readable. -/
structure Launching (F : Fleet) (m : Memory) (d : Descriptor) (f : Formula Descriptor)
    (kernels : List (Key × CompiledKernel)) : Prop where
  valid : d.Valid m
  writable : d.access ≠ .readOnly
  kernels : ∀ s ∈ d.shards, ∃ kernel, kernels.lookup (F.hardware s.device).context = some kernel ∧
    kernel.source.Serves f d.type ∧ F.suits s.device kernel.source kernel.workgroup
  leaves : ∀ w, .vector w ∈ f.terminals → Readable m d w

/-- Right kernels for the devices of a target serve a formula into it. -/
theorem Launching.of_right (hv : d.Valid m) (huse : F.inUse d.devices)
    (hwritable : d.access ≠ .readOnly)
    (hkernels : ∀ device ∈ d.devices, ∃ kernel,
      kernels.lookup (F.hardware device).context = some kernel ∧
      kernel.Right F (F.hardware device).context
        ((f.map fun w => .element w.type).kernelShape (some (.element d.type))))
    (hleaves : ∀ w, .vector w ∈ f.terminals → Readable m d w) : Launching F m d f kernels := by
  refine ⟨hv, hwritable, fun s hs => ?_, hleaves⟩
  obtain ⟨kernel, hlookup, ⟨g, result, hsource, hkey⟩, hsuits⟩ :=
    hkernels s.device (List.mem_map_of_mem hs)
  exact ⟨kernel, hlookup, KernelSource.serves_of_key hsource hkey,
    hsuits d.devices huse s.device (List.mem_map_of_mem hs) rfl⟩

/-- The element that the kernel of a formula stores at a position. -/
def resultAt (A : Arithmetic V) (m : Memory) (d : Descriptor) (f : Formula Descriptor) (i : Nat) :
    Option Scalar :=
  f.kernelAt A d.type (Descriptor.look m) i

variable {before : List Shard} {s : Shard} {after : List Shard} {m' : Memory}

/-- The buffer of a readable leaf at the place of a shard that has not been written yet. -/
theorem Readable.buffer {w : Descriptor} (h : Readable m d w) (hv : d.Valid m)
    (hd : d.shards = before ++ s :: after) (hs : s.length ≠ 0)
    (hdiff : m.Differs (buffersOf before) [] m') : ∃ b, ∃ data : Array Scalar,
      leafArgument before.length (.vector w) = .ok (.buffer (some b)) ∧
      m'.buffer b = some ⟨s.device, w.type, w.access, data⟩ ∧ data.size = s.length ∧
      ∀ i, i < s.length → (w.contents m)[total (before.map (·.length)) + i]? = data[i]? := by
  obtain ⟨before', s', after', hw, hlength, hlengths, hdevice, hslength⟩ :=
    exists_shard_of_layout hd h.layout
  have hvalid : ShardsValid m w.type w.access (before' ++ s' :: after') := hw ▸ h.valid
  obtain ⟨b, data, hb, hsize, hbuf, hcontents⟩ :=
    hvalid.append_right.head.buffer (by rw [hslength]; exact hs)
  refine ⟨b, data, ?_, ?_, hsize.trans hslength, fun i hi => ?_⟩
  · simp only [leafArgument, atSigned?_natCast, hw, ← hlength,
      List.getElem?_append_right (Nat.le_refl _), Nat.sub_self, List.getElem?_cons_zero, hb]
  · -- the shards before are written to, and the leaf's buffer is none of theirs
    rw [← hdevice]
    apply hdiff.buffer_eq hbuf
    intro hmem
    have hdbuffers : d.buffers = buffersOf before ++ buffersOf (s :: after) := by
      rw [buffers, hd, buffersOf_append]
    rcases h.apart with hsame | hapart
    · -- the target itself is a leaf: its shard at hand is not among those before
      have hmaps : w.shards.map (·.buffer) = d.shards.map (·.buffer) :=
        map_shards_of_forget hsame fun _ => rfl
      rw [hw, hd, List.map_append, List.map_append, List.map_cons, List.map_cons] at hmaps
      have hsplit := List.append_inj hmaps (by simpa using hlength)
      have hsb : s.buffer = some b := (List.cons.inj hsplit.2).1 ▸ hb
      have hdvalid : ShardsValid m d.type d.access (before ++ s :: after) := hd ▸ hv
      exact (hdvalid.middle_notMem hsb).1 hmem
    · refine hapart b ?_ (hdbuffers ▸ List.mem_append_left _ hmem)
      rw [buffers, hw, mem_buffersOf]
      exact ⟨s', List.mem_append_right _ List.mem_cons_self, hb⟩
  · rw [← hlengths, h.valid.getElem?_contents hw (hslength.symm ▸ hi), hcontents,
      Array.getElem?_toList]

/-- What a leaf binds in a launch on a shard: an argument that fits its parameter and has, at every
index of the shard, the value of the leaf at the position there. -/
theorem leafArgument_fits {p : Parameter} {t : Terminal Descriptor} {arg : Argument}
    (hp : p.Takes t) (hleaf : ∀ w, t = .vector w → Readable m d w) (hv : d.Valid m)
    (hd : d.shards = before ++ s :: after) (hs : s.length ≠ 0)
    (hdiff : m.Differs (buffersOf before) [] m') (harg : leafArgument before.length t = .ok arg) :
    m'.Fits s.device s.length p arg ∧ ∀ i, i < s.length → ∃ v, arg.valueAt A m' i = some v ∧
      t.valueAt A (Descriptor.look m) (total (before.map (·.length)) + i) = some v := by
  cases t with
  | vector w =>
    obtain ⟨b, data, hbind, hbuf, hsize, hvalues⟩ := (hleaf w rfl).buffer hv hd hs hdiff
    rw [hbind] at harg
    cases harg
    refine ⟨⟨hp.1, b, _, rfl, hbuf, rfl, hp.2, hsize⟩, fun i hi => ?_⟩
    have hget : data[i]? = some data[i] := Array.getElem?_eq_getElem (hsize.symm ▸ hi)
    refine ⟨A.load w.type data[i], ?_, ?_⟩
    · simp [Argument.valueAt, hbuf, hget]
    · simp [Terminal.valueAt, Descriptor.look, hvalues i hi, hget]
  | scalar x dt =>
    obtain ⟨hkind, e, he, htoken⟩ := hp
    rw [leafArgument, mapError_eq_ok_iff, scalarArgument_of_token htoken, map_eq_ok_iff] at harg
    obtain ⟨y, hy, rfl⟩ := harg
    refine ⟨⟨hkind, he⟩, fun i _ => ⟨A.load e y, rfl, ?_⟩⟩
    simp [Terminal.valueAt, DataType.single_of_token htoken, hy, Except.map]

/-- A leaf is refused only for its value, never for its kind. -/
theorem leafArgument_not_rejection {p : Parameter} {t : Terminal Descriptor} {e : Fault}
    (hp : p.Takes t) {device : Int} (h : leafArgument device t = .error e) : ¬ e.Rejection := by
  cases t with
  | vector w =>
    simp only [leafArgument] at h
    split at h <;> cases h
    simp [Fault.Rejection, Fault.kind, VectorFault.kind]
  | scalar x dt =>
    obtain ⟨-, t, -, htoken⟩ := hp
    rw [leafArgument, scalarArgument_of_token htoken] at h
    cases hx : t.encode x with
    | error f =>
      rw [hx] at h
      cases h
      have hf : f ≠ .notConvertible := fun h => t.encode_ne_notConvertible x (h ▸ hx)
      cases f <;> simp [Fault.Rejection, Fault.kind, NumberFault.kind] at hf ⊢
    | ok y =>
      rw [hx] at h
      cases h

/-- The arguments of a launch on a shard: its length, its buffer and those of the leaves. -/
theorem bindArguments_eq {d' : Descriptor} (hd : d.shards = before ++ s :: after)
    (hsame : d'.forget = d.forget) (leaves : List (Terminal Descriptor)) :
    bindArguments d' before.length leaves = (leaves.mapM (leafArgument before.length)).map
      fun rest => .scalar (.element .uint64) (.int s.length) :: .buffer s.buffer :: rest := by
  have hlengths : d.lengths = before.map (·.length) ++ s.length :: after.map (·.length) := by
    rw [lengths, hd, List.map_append, List.map_cons]
  have hfirst : d'.boundaries[before.length]? = some (total (before.map (·.length))) := by
    rw [boundaries_of_forget hsame, boundaries, hlengths, getElem?_boundariesOf (by simp),
      Nat.zero_add, List.take_left' (by simp)]
  have hlast : d'.boundaries[before.length + 1]? =
      some (total (before.map (·.length)) + s.length) := by
    have htake : (before.map (·.length) ++ s.length :: after.map (·.length)).take
        (before.length + 1) = before.map (·.length) ++ [s.length] := by
      rw [List.take_append, List.take_of_length_le (by simp)]
      simp
    rw [boundaries_of_forget hsame, boundaries, hlengths, getElem?_boundariesOf (by simp),
      Nat.zero_add, htake, total_append]
    rfl
  -- events may have been noted since, but buffers are the same
  obtain ⟨s', hs', hbuffer⟩ : ∃ s', d'.shards[before.length]? = some s' ∧ s'.buffer = s.buffer := by
    have hmaps : d'.shards.map (·.buffer) = d.shards.map (·.buffer) :=
      map_shards_of_forget hsame fun _ => rfl
    have hget := congrArg (·[before.length]?) hmaps
    simp only [List.getElem?_map, hd, List.getElem?_append_right (Nat.le_refl _), Nat.sub_self,
      List.getElem?_cons_zero, Option.map_some] at hget
    exact Option.map_eq_some_iff.mp hget
  have hnot : ¬ total (before.map (·.length)) + s.length < total (before.map (·.length)) := by omega
  have hnext : ((before.length : Int) + 1) = ((before.length + 1 : Nat) : Int) := by omega
  simp only [bindArguments, hnext, atSigned?_natCast, hfirst, hlast, hs', hbuffer]
  have hcount : ((total (before.map (·.length)) + s.length : Nat) : Int) -
      (total (before.map (·.length)) : Nat) = s.length := by omega
  rw [if_neg hnot, hcount]
  cases leaves.mapM (leafArgument before.length) <;> rfl

variable {session : Session} {d' : Descriptor}

/-- What is bound on a shard makes a launch that may be made. It stores the results of the formula
at the positions of the shard. -/
theorem Launching.bound (h : Launching F m d f kernels) (hd : d.shards = before ++ s :: after)
    (hs : s.length ≠ 0) (hdiff : m.Differs (buffersOf before) [] m') {source : KernelSource}
    (hserves : source.Serves f d.type) {rest : List Argument}
    (hrest : f.terminals.mapM (leafArgument before.length) = .ok rest) :
    ∃ b, ∃ data : Array Scalar, s.buffer = some b ∧ data.size = s.length ∧
      m'.Launchable s.device source b ⟨s.device, d.type, d.access, data⟩ rest ∧
      ∀ values, m'.Computes A source d.type data.size rest values → ∀ i, i < s.length →
        resultAt A m d f (total (before.map (·.length)) + i) = values[i]? := by
  have hvalid : ShardsValid m d.type d.access (before ++ s :: after) := hd ▸ h.valid
  obtain ⟨b, data, hb, hsize, hbuf, -⟩ := hvalid.append_right.head.buffer hs
  have hbuf' : m'.buffer b = some ⟨s.device, d.type, d.access, data⟩ :=
    hdiff.buffer_eq hbuf (hvalid.middle_notMem hb).1
  have hleaves := mapM_eq_ok_iff.mp hrest
  have hfits : ∀ p t arg, t ∈ f.terminals → p.Takes t → leafArgument before.length t = .ok arg →
      m'.Fits s.device s.length p arg ∧ ∀ i, i < s.length → ∃ v, arg.valueAt A m' i = some v ∧
        t.valueAt A (Descriptor.look m) (total (before.map (·.length)) + i) = some v :=
    fun p t arg ht hp harg =>
      leafArgument_fits hp (fun w hw => h.leaves w (hw ▸ ht)) h.valid hd hs hdiff harg
  refine ⟨b, data, hb, hsize, ⟨hbuf', rfl, h.writable, hserves.result, ?_⟩, ?_⟩
  · exact forall₂_trans hserves.parameters hleaves fun p t arg ht hp harg => by
      rw [hsize]
      exact (hfits p t arg ht hp harg).1
  intro values hcomputes i hi
  -- the arguments have the values of the leaves, and the text is that of the formula's kernel
  obtain ⟨args, hvalues, hargs⟩ : ∃ args, f.argumentsAt A (Descriptor.look m)
      (total (before.map (·.length)) + i) = some args ∧
      rest.mapM (Argument.valueAt A m' i) = some args :=
    exists_mapM_of_forall₂ hleaves fun t ht arg harg => by
      obtain ⟨k, hk⟩ := List.getElem?_of_mem ht
      obtain ⟨p, -, hp⟩ := getElem?_of_forall₂ hserves.parameters.flip hk
      obtain ⟨v, hv, hvalue⟩ := (hfits p t arg ht hp harg).2 i hi
      exact ⟨v, hvalue, hv⟩
  rw [hcomputes.value i (hsize ▸ hi) args hargs]
  exact Formula.kernelAt_eq_some.mpr ⟨source.text, args, hserves.text, hvalues, rfl⟩

/-- A launch on a shard stores the results of the formula at the positions of the shard. -/
theorem launch_ensures (h : Launching F m d f kernels) (hhardware : session.hardware = F.hardware)
    (hd : d.shards = before ++ s :: after) (hs : s.length ≠ 0) (hsame : d'.forget = d.forget)
    (hdiff : m.Differs (buffersOf before) [] m') :
    (launch session kernels f.terminals before.length s).Ensures (deviceContract A F.suits)
      (fun _ d'' m'' => Touched s.buffer.toList [] d' m' d'' m'' ∧ ∀ i, i < s.length →
        resultAt A m d f (total (before.map (·.length)) + i) = (s.contents m'')[i]?)
      (Broken s.buffer.toList [] d' m') d' m' := by
  obtain ⟨kernel, hlookup, hserves, hsuits⟩ :=
    h.kernels s (by rw [hd]; exact List.mem_append_right _ List.mem_cons_self)
  have hdevice : (session.hardware s.device).context = (F.hardware s.device).context := by
    rw [hhardware]
  simp only [launch, hdevice, hlookup, Task.ensures_bind, Task.ensures_get, Task.ensures_ofExcept,
    Task.ensures_modify]
  have hnothing : ∀ {e : Fault}, ¬ e.Rejection → Broken s.buffer.toList [] d' m' e d' m' :=
    fun he => ⟨.refl _ _ _ _, he⟩
  refine ⟨fun threads _ => ⟨fun args hargs => ?_, fun e he => hnothing ?_⟩, fun e he => hnothing ?_⟩
  · rw [bindArguments_eq hd hsame] at hargs
    obtain ⟨rest, hrest, rfl⟩ := map_eq_ok_iff.mp hargs
    obtain ⟨b, data, hb, hsize, hrun, hresults⟩ := h.bound (A := A) hd hs hdiff hserves hrest
    have htouched : ∀ values : Array Scalar, values.size = data.size → m'.Differs s.buffer.toList []
        (m'.setBuffer b ⟨s.device, d.type, d.access, values⟩) := fun values hvsize => by
      rw [hb]
      exact Memory.Differs.setBuffer hrun.present hvsize
    rw [hb, ← hsize]
    refine ensures_launch hsuits hrun (fun e values hvsize hcomputes => ?_)
      fun e values hvsize => ?_
    · rw [← hb]
      refine ⟨⟨forget_setEvent _ _, htouched values hvsize⟩, fun i hi => ?_⟩
      rw [Shard.contents_of_buffer hb (m'.setBuffer_buffer_self b _)]
      exact hresults _ hcomputes i (hsize ▸ hi)
    · rw [← hb]
      exact ⟨⟨rfl, htouched values hvsize⟩, Fault.not_rejection_device e⟩
  · rw [bindArguments_eq hd hsame] at he
    obtain ⟨t, ht, he⟩ := exists_of_mapM_eq_error (map_eq_error_iff.mp he)
    obtain ⟨k, hk⟩ := List.getElem?_of_mem ht
    obtain ⟨p, -, hp⟩ := getElem?_of_forall₂ hserves.parameters.flip hk
    exact leafArgument_not_rejection hp he
  · -- the number of threads fails for a workgroup without threads only, which is no refusal
    cases hkind : (session.hardware s.device).kind with
    | processor =>
      rw [hkind] at he
      simp only [globalSize] at he
      split at he <;> cases he
      simp [Fault.Rejection, Fault.kind]
    | graphics =>
      rw [hkind] at he
      cases he

/-- Behind a shard that holds its results, what stores those of the shards behind it makes all of
them hold their results. -/
theorem results_cons (h : Launching F m d f kernels) (hd : d.shards = before ++ s :: after)
    {d₁ d₂ : Descriptor} {m₁ m₂ : Memory} (hdiff : m.Differs (buffersOf before) [] m')
    (htouched : Touched s.buffer.toList [] d' m' d₁ m₁)
    (htouched' : Touched (buffersOf after) [] d₁ m₁ d₂ m₂)
    (hs : ∀ i, i < s.length →
      resultAt A m d f (total (before.map (·.length)) + i) = (s.contents m₁)[i]?)
    (hafter : ∀ i, i < total (after.map (·.length)) →
      resultAt A m d f (total ((before ++ [s]).map (·.length)) + i) = (contentsOf m₂ after)[i]?) :
    Touched (buffersOf (s :: after)) [] d' m' d₂ m₂ ∧ ∀ i, i < total ((s :: after).map (·.length)) →
      resultAt A m d f (total (before.map (·.length)) + i) = (contentsOf m₂ (s :: after))[i]? := by
  have hvalid : ShardsValid m d.type d.access (before ++ s :: after) := hd ▸ h.valid
  have hvalid₁ : s.Valid m₁ d.type d.access :=
    hvalid.append_right.head.of_differs (hdiff.append htouched.memory)
  have hkept : s.contents m₂ = s.contents m₁ :=
    hvalid₁.contents_of_differs htouched'.memory fun b hb => hvalid.append_right.head_notMem hb
  refine ⟨(htouched.widen toList_subset_buffersOf_cons).trans
    (htouched'.widen fun _ => mem_buffersOf_cons), ?_⟩
  refine getElem?_contentsOf_cons (hkept ▸ hvalid₁.length_contents) (fun i hi => ?_) fun i hi => ?_
  · rw [hkept, hs i hi]
  · rw [← hafter i hi, total_append_singleton, Nat.add_assoc]

/-- The launches on the last shards store the results at their positions. -/
theorem launchFrom_ensures (h : Launching F m d f kernels)
    (hhardware : session.hardware = F.hardware)
    {rest : List Shard} : ∀ {before : List Shard} {d' : Descriptor} {m' : Memory},
    d.shards = before ++ rest → d'.forget = d.forget → m.Differs (buffersOf before) [] m' →
    (launchFrom session kernels f.terminals before.length rest).Ensures (deviceContract A F.suits)
      (fun _ d'' m'' => Touched (buffersOf rest) [] d' m' d'' m'' ∧
        ∀ i, i < total (rest.map (·.length)) →
          resultAt A m d f (total (before.map (·.length)) + i) = (contentsOf m'' rest)[i]?)
      (Broken (buffersOf rest) [] d' m') d' m' := by
  induction rest with
  | nil =>
    intro before d' m' hd hsame hdiff
    exact ⟨.refl _ _ _ _, fun i hi => absurd hi (Nat.not_lt_zero i)⟩
  | cons s rest ih =>
    intro before d' m' hd hsame hdiff
    have hd' : d.shards = (before ++ [s]) ++ rest := by rw [hd, List.append_assoc]; rfl
    have hlength : (before ++ [s]).length = before.length + 1 := by simp
    -- the launches behind the shard, after one on the shard or none
    have hrest : ∀ {d₁ m₁}, Touched s.buffer.toList [] d' m' d₁ m₁ →
        (∀ i, i < s.length → resultAt A m d f (total (before.map (·.length)) + i) =
          (s.contents m₁)[i]?) →
        (launchFrom session kernels f.terminals (before.length + 1) rest).Ensures
          (deviceContract A F.suits)
          (fun _ d'' m'' => Touched (buffersOf (s :: rest)) [] d' m' d'' m'' ∧
            ∀ i, i < total ((s :: rest).map (·.length)) →
              resultAt A m d f (total (before.map (·.length)) + i) =
                (contentsOf m'' (s :: rest))[i]?)
          (Broken (buffersOf (s :: rest)) [] d' m') d₁ m₁ := by
      intro d₁ m₁ htouched hs
      have hdiff₁ : m.Differs (buffersOf (before ++ [s])) [] m₁ := by
        rw [buffersOf_append_singleton]
        exact hdiff.append htouched.memory
      have hstep := ih hd' (htouched.same.trans hsame) hdiff₁
      rw [hlength] at hstep
      refine hstep.imp
        (fun _ d'' m'' hpost => results_cons h hd hdiff htouched hpost.1 hs hpost.2) ?_
      intro e d'' m'' he
      exact ⟨(htouched.widen toList_subset_buffersOf_cons).trans
        (he.1.widen fun _ => mem_buffersOf_cons), he.2⟩
    simp only [launchFrom, Task.ensures_ite, Task.ensures_bind]
    refine ⟨fun hzero => hrest (.refl _ _ _ _) fun i hi => absurd (hzero ▸ hi) (Nat.not_lt_zero i),
      fun hs => ?_⟩
    refine (launch_ensures h hhardware hd hs hsame hdiff).imp ?_ fun e d'' m'' he => ?_
    · intro _ d₁ m₁ hpost
      obtain ⟨htouched, hvalues⟩ := hpost
      exact hrest htouched hvalues
    · exact ⟨he.1.widen toList_subset_buffersOf_cons, he.2⟩

/-- After the launches the target holds what the kernel of the formula computes. -/
theorem dispatch_ensures (h : Launching F m d f kernels)
    (hhardware : session.hardware = F.hardware) :
    (dispatch session kernels f).Ensures (deviceContract A F.suits)
      (fun _ d' m' => Touched d.buffers [] d m d' m' ∧
        A.byKernel.results d.type d.size (Descriptor.look m) f = some (d'.contents m'))
      (Broken d.buffers [] d m) d m := by
  simp only [dispatch, Task.ensures_bind, Task.ensures_get]
  have hstart := launchFrom_ensures (A := A) h hhardware (List.nil_append d.shards).symm rfl
    (.refl [] [] m)
  refine hstart.imp_ok ?_
  intro _ d' m' hpost
  obtain ⟨htouched, hvalues⟩ := hpost
  refine ⟨htouched, ?_⟩
  have hlength : (contentsOf m' d.shards).length = d.size :=
    (h.valid.of_differs htouched.memory).length_contents
  rw [contents_of_forget htouched.same, Descriptor.contents]
  apply mapM_range_eq_some hlength
  intro i hi
  have := hvalues i hi
  rwa [List.map_nil, total, Nat.zero_add] at this

end Vector

end DistributedVector
