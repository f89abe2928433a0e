import DistributedVector.Proofs.Launch
import DistributedVector.Proofs.Partitions
import DistributedVector.Session.Throughput

/-!
# New vectors

Boundaries that a session accepts split all elements over the devices, whichever strategy has
answered them. The buffers of a new vector are new, each fits its shard, and together they hold
zeros or the host data that the vector is made from. Measuring the throughput of a device makes
vectors of its own and leaves everything else alone.

## Main definitions

* `Session.Kept` — what making a vector leaves of a session and the memory
* `Vector.Fresh` — a vector that has just been made

## Main results

* `total_lengthsOf` — accepted boundaries split all elements
* `Vector.create_ensures` — a new vector is fresh
* `Session.partition_ensures` — partitions of a session are accepted ones
-/

namespace DistributedVector

section Boundaries

/-- Boundaries that do not decrease split what lies between the first and the last of them. -/
theorem total_lengthsOf {a n : Int} {rest : List Int} (hlast : (a :: rest).getLast? = some n)
    (h : nondecreasing (a :: rest)) : (total (lengthsOf (a :: rest)) : Int) = n - a := by
  induction rest generalizing a with
  | nil =>
    cases hlast
    simp [lengthsOf, total]
  | cons b rest ih =>
    simp only [nondecreasing, Bool.and_eq_true, decide_eq_true_eq] at h
    have hrest := ih (by rwa [List.getLast?_cons_cons] at hlast) h.2
    have hstep := h.1
    rw [lengthsOf, total]
    omega

theorem length_lengthsOf (a : Int) (rest : List Int) :
    (lengthsOf (a :: rest)).length = rest.length := by
  induction rest generalizing a with
  | nil => rfl
  | cons b rest ih => rw [lengthsOf, List.length_cons, ih, List.length_cons]

/-- Accepted boundaries give every device its elements, and all of them. -/
theorem lengthsOf_of_validate {part : List Int} {n : Int} {devices : Nat}
    (h : validatePartition part n devices = .ok ()) :
    (lengthsOf part).length = devices ∧ (total (lengthsOf part) : Int) = n := by
  obtain ⟨rest, rfl, hlength, hlast, hmonotone⟩ := validatePartition_eq_ok h
  refine ⟨?_, by rw [total_lengthsOf hlast hmonotone, Int.sub_zero]⟩
  rw [length_lengthsOf]
  exact Int.ofNat.inj hlength

theorem lengthsOf_replicate_zero (n : Nat) :
    lengthsOf (List.replicate (n + 1) 0) = List.replicate n 0 := by
  induction n with
  | zero => rfl
  | succ n ih =>
    rw [List.replicate_succ, List.replicate_succ, lengthsOf, ← List.replicate_succ, ih]; rfl

theorem total_replicate_zero (n : Nat) : total (List.replicate n 0) = 0 := by
  induction n with
  | zero => rfl
  | succ n ih => rw [List.replicate_succ, total, ih]

end Boundaries

/-- The session stays right, and nothing in the memory changes that is there. -/
def Session.Kept (F : Fleet) (m : Memory) (s : Session) (m' : Memory) : Prop :=
  s.Sound F ∧ m.Differs [] [] m'

theorem Session.Kept.after {F : Fleet} {m m' m'' : Memory} {s : Session}
    (h : Session.Kept F m' s m'') (hd : m.Differs [] [] m') : Session.Kept F m s m'' :=
  ⟨h.1, hd.trans_same h.2⟩

namespace Vector

variable {V : Type} {A : Arithmetic V} {F : Fleet} {m m' : Memory}

/-- Shards that are allocated have new buffers and hold zeros. -/
theorem allocate_ensures {τ : Type} {s : τ} {suits : DeviceId → KernelSource → Int → Prop}
    {type : ElementType} {access : Access} {lengths : List (DeviceId × Nat)} :
    (allocate type access lengths : Task τ (List Shard)).Ensures (deviceContract A suits)
      (fun shards s' m' => s' = s ∧ m.Differs [] [] m' ∧ ShardsValid m' type access shards ∧
        (∀ b ∈ buffersOf shards, m.buffer b = none) ∧
        shards.map (fun s => (s.device, s.length)) = lengths ∧
        contentsOf m' shards = List.replicate (total (lengths.map (·.2))) type.zero)
      (fun _ s' m' => s' = s ∧ m.Differs [] [] m') s m := by
  induction lengths generalizing m with
  | nil =>
    have hnone : ∀ b ∈ buffersOf [], m.buffer b = none := fun b hb => absurd hb List.not_mem_nil
    exact ⟨rfl, .refl _ _ _, .nil, hnone, rfl, rfl⟩
  | cons head rest ih =>
    obtain ⟨device, n⟩ := head
    simp only [allocate, Task.ensures_bind, Task.ensures_ite, Task.ensures_pure]
    refine ⟨fun hzero => ?_, fun hn => ?_⟩
    · subst hzero
      refine ih.imp_ok ?_
      intro shards s' m' hpost
      obtain ⟨hs, hdiff, hvalid, hnew, hlengths, hcontents⟩ := hpost
      -- a shard without elements has no buffer
      have hempty : Shard.Valid m' type access ⟨device, 0, none, none⟩ :=
        ⟨⟨fun _ => rfl, fun _ => rfl⟩, by rintro _ ⟨⟩⟩
      refine ⟨hs, hdiff, .cons hempty hvalid (by rintro _ ⟨⟩), hnew,
        by rw [List.map_cons, hlengths], ?_⟩
      rw [contentsOf_cons, hcontents, Shard.contents_of_none rfl, List.map_cons,
        total, Nat.zero_add]
      rfl
    · rw [map_eq_pure_bind, Task.ensures_bind]
      refine ensures_allocate (fun b hb => ?_) fun _ => ⟨rfl, .refl _ _ _⟩
      have hdiff := Memory.Differs.newBuffer ⟨device, type, access, Array.replicate n type.zero⟩ hb
      rw [Task.ensures_pure]
      refine ih.imp ?_ fun e s' m' h => ⟨h.1, hdiff.trans_same h.2⟩
      intro shards s' m' hpost
      obtain ⟨hs, hdiff', hvalid, hnew, hlengths, hcontents⟩ := hpost
      have hbuf := hdiff'.buffer_eq (m.setBuffer_buffer_self b _) List.not_mem_nil
      have hvalid' : Shard.Valid m' type access ⟨device, n, some b, none⟩ := ⟨by simp [hn], by
        rintro _ ⟨⟩
        exact ⟨_, Array.size_replicate, hbuf⟩⟩
      have hfresh : b ∉ buffersOf shards := fun hmem => absurd (hnew b hmem) (by simp)
      refine ⟨hs, hdiff.trans_same hdiff', .cons hvalid' hvalid (by rintro _ ⟨⟩; exact hfresh), ?_,
        by rw [List.map_cons, hlengths], ?_⟩
      · intro b' hb'
        rw [buffersOf_cons] at hb'
        rcases List.mem_cons.mp hb' with rfl | hb'
        · exact hb
        · have hnone := hnew b' hb'
          have hne : b' ≠ b := by
            rintro rfl
            simp at hnone
          rwa [m.setBuffer_buffer_of_ne _ hne] at hnone
      · rw [contentsOf_cons, hcontents, Shard.contents_of_buffer rfl hbuf, List.map_cons, total,
          List.replicate_add, Array.toList_replicate]

/-- A vector that has just been made for a request: its buffers are new, and it holds zeros or the
host data, converted to its type. -/
structure Fresh (m : Memory) (r : VectorRequest) (d : Descriptor) (m' : Memory) : Prop where
  session : d.session = r.session
  access : d.access = r.access
  type : typeFor r = .ok d.type
  devices : d.devices = r.devices
  size : (d.size : Int) = r.size
  valid : d.Valid m'
  new : ∀ b ∈ d.buffers, m.buffer b = none
  contents : match r.host with
    | none => d.contents m' = List.replicate r.size.toNat d.type.zero
    | some data => ∃ values, data.elements d.type r.size.toNat = .ok values ∧
      d.contents m' = values.toList

/-- A task that answers boundaries for a number of elements over devices that are used. -/
def Partitions (A : Arithmetic V) (F : Fleet)
    (partition : Int → List DeviceId → Task Session (List Int)) : Prop :=
  ∀ n devices s m, s.Sound F → F.inUse devices → (partition n devices).Ensures
    (deviceContract A F.suits)
    (fun part s' m' => Session.Kept F m s' m' ∧ validatePartition part n devices.length = .ok ())
    (fun _ s' m' => Session.Kept F m s' m') s m

variable {r : VectorRequest} {partition : Int → List DeviceId → Task Session (List Int)}
  {s : Session}

/-- The lengths of a new vector: one for each device, and all elements together. -/
theorem boundariesFor_ensures (hp : Partitions A F partition) (hs : s.Sound F)
    (hdevices : F.inUse r.devices) :
    (boundariesFor partition r).Ensures (deviceContract A F.suits)
      (fun part s' m' => Session.Kept F m s' m' ∧ (lengthsOf part).length = r.devices.length ∧
        (total (lengthsOf part) : Int) = r.size)
      (fun _ s' m' => Session.Kept F m s' m') s m := by
  unfold boundariesFor
  split
  next part hpart =>
    simp only [Task.ensures_bind, ensures_orFault, Task.ensures_pure]
    exact ⟨fun _ hvalid => ⟨⟨hs, .refl _ _ _⟩, lengthsOf_of_validate hvalid⟩,
      fun _ _ => ⟨hs, .refl _ _ _⟩⟩
  next hnone =>
    simp only [Task.ensures_ite, Task.ensures_pure]
    refine ⟨fun hzero => ⟨⟨hs, .refl _ _ _⟩, ?_, ?_⟩, fun _ => ?_⟩
    · rw [lengthsOf_replicate_zero, List.length_replicate]
    · rw [lengthsOf_replicate_zero, total_replicate_zero, hzero]
      rfl
    · refine (hp r.size r.devices s m hs hdevices).imp_ok ?_
      intro part s' m' hpost
      obtain ⟨hkept, hvalid⟩ := hpost
      exact ⟨hkept, lengthsOf_of_validate hvalid⟩

/-- Shards made one for each device, with one length each, have these devices and these lengths. -/
theorem unzip_shards {shards : List Shard} {devices : List DeviceId} {lengths : List Nat}
    (hlength : lengths.length = devices.length)
    (h : shards.map (fun s => (s.device, s.length)) = devices.zip lengths) :
    shards.map (·.device) = devices ∧ shards.map (·.length) = lengths := by
  constructor
  · have hfst := congrArg (List.map Prod.fst) h
    rwa [List.map_map, List.map_fst_zip (by omega)] at hfst
  · have hsnd := congrArg (List.map Prod.snd) h
    rwa [List.map_map, List.map_snd_zip (by omega)] at hsnd

theorem size_of_checkRequest (h : checkRequest r = .ok ()) : 0 ≤ r.size := by
  unfold checkRequest at h
  split at h
  · cases h
  · split at h
    · cases h
    · omega

/-- A new vector is fresh, and making it changes nothing else. -/
theorem create_ensures (hp : Partitions A F partition) (hs : s.Sound F)
    (hdevices : F.inUse r.devices) :
    (create partition r).Ensures (deviceContract A F.suits)
      (fun d s' m' => Session.Kept F m s' m' ∧ Fresh m r d m')
      (fun _ s' m' => Session.Kept F m s' m') s m := by
  simp only [create, Task.ensures_bind, ensures_orFault]
  refine ⟨fun _ hcheck => ⟨fun type htype => ?_, fun _ _ => ⟨hs, .refl _ _ _⟩⟩,
    fun _ _ => ⟨hs, .refl _ _ _⟩⟩
  have hsize := size_of_checkRequest hcheck
  refine (boundariesFor_ensures hp hs hdevices).imp_ok ?_
  intro part s₁ m₁ hpost
  obtain ⟨⟨hs₁, hdiff₁⟩, hlength, htotal⟩ := hpost
  apply allocate_ensures.imp
  · intro shards _ m₂ hpost
    obtain ⟨rfl, hdiff₂, hvalid, hnew, hlengths, hcontents⟩ := hpost
    have hdiff : m.Differs [] [] m₂ := hdiff₁.trans_same hdiff₂
    obtain ⟨hmine, hsizes⟩ := unzip_shards hlength hlengths
    have hnew' : ∀ b ∈ buffersOf shards, m.buffer b = none := fun b hb =>
      hdiff₁.buffer_eq_none (hnew b hb)
    have hcount : total (lengthsOf part) = r.size.toNat := by omega
    have hzeros : contentsOf m₂ shards = List.replicate r.size.toNat type.zero := by
      rw [hcontents, List.map_snd_zip (by omega), hcount]
    have hall : total (shards.map (·.length)) = r.size.toNat := by rw [hsizes, hcount]
    split
    next hhost =>
      refine ⟨⟨hs₁, hdiff⟩, rfl, rfl, htype, hmine, ?_, hvalid, hnew', ?_⟩
      · change ((total (shards.map (·.length)) : Nat) : Int) = r.size
        omega
      · rw [hhost]
        exact hzeros
    -- the host data is written over the zeros, into buffers that are still new
    next data hhost =>
      simp only [Task.ensures_bind, Task.ensures_runOn, Task.ensures_pure]
      have hfresh : Descriptor.Valid m₂ ⟨r.session, type, r.access, shards⟩ := hvalid
      have hall' : (Descriptor.size ⟨r.session, type, r.access, shards⟩ : Int) = r.size := by
        change ((total (shards.map (·.length)) : Nat) : Int) = r.size
        omega
      have hkept : ∀ {d' m'}, Descriptor.Touched (buffersOf shards) []
          ⟨r.session, type, r.access, shards⟩ m₂ d' m' → m.Differs [] [] m' := fun h =>
        hdiff.trans h.memory (fun b hb => .inr (hnew' b hb)) fun _ hc => absurd hc List.not_mem_nil
      refine (write_ensures hfresh).imp ?_ fun e d' m' h => ⟨hs₁, hkept h.1⟩
      intro _ d' m' hpost
      obtain ⟨htouched, -, values, hvalues, hcount', hcontents'⟩ := hpost
      refine ⟨⟨hs₁, hkept htouched⟩, ?_⟩
      have hsame := htouched.same
      refine ⟨Descriptor.session_of_forget hsame, Descriptor.access_of_forget hsame, ?_,
        (Descriptor.devices_of_forget hsame).trans hmine,
        by rw [Descriptor.size_of_forget hsame, hall'], htouched.valid hfresh,
        by rw [Descriptor.buffers_of_forget hsame]; exact hnew', ?_⟩
      · rw [Descriptor.type_of_forget hsame]
        exact htype
      · rw [hhost, Descriptor.type_of_forget hsame]
        refine ⟨values, hvalues, ?_⟩
        rw [hcontents']
        apply overlay_zero_of_length
        rw [hfresh.length_contents, Array.length_toList, hcount']
        omega
  · intro e _ m₂ hpost
    obtain ⟨rfl, hdiff₂⟩ := hpost
    exact ⟨hs₁, hdiff₁.trans_same hdiff₂⟩

/-- A new vector on one device has one shard. -/
theorem Fresh.layout {d : Descriptor} (h : Fresh m r d m') {device : DeviceId}
    (hdevices : r.devices = [device]) : d.layout = [(device, r.size.toNat)] := by
  have hmine := h.devices.trans hdevices
  obtain ⟨shard, hshards, hshard⟩ := List.map_eq_singleton_iff.mp hmine
  have hsize := h.size
  rw [Descriptor.size, Descriptor.lengths, hshards, List.map_singleton, total, total] at hsize
  rw [Descriptor.layout, hshards, List.map_singleton, hshard]
  congr
  omega

end Vector

section Measuring

variable {V : Type} {A : Arithmetic V} {F : Fleet} {τ : Type}

/-- What every run of a task keeps, repeated runs keep. -/
theorem repeated_ensures {run : Task τ Unit} {P : τ → Memory → Prop}
    {bad : Fault → τ → Memory → Prop}
    (h : ∀ s m, P s m → run.Ensures (deviceContract A F.suits) (fun _ => P) bad s m) {n : Nat} :
    ∀ {s m}, P s m → (repeated run n).Ensures (deviceContract A F.suits) (fun _ => P) bad s m := by
  induction n with
  | zero => exact fun hP => hP
  | succ n ih =>
    intro s m hP
    rw [repeated, Task.ensures_bind]
    exact (h s m hP).imp_ok fun _ _ _ hP => ih hP

theorem profile_ensures {run : Task τ Unit} {P : τ → Memory → Prop}
    {bad : Fault → τ → Memory → Prop}
    (h : ∀ s m, P s m → run.Ensures (deviceContract A F.suits) (fun _ => P) bad s m)
    (hbad : ∀ e s m, P s m → bad e s m) {warmup iterations : Int} {s : τ} {m : Memory}
    (hP : P s m) :
    (profile run warmup iterations).Ensures (deviceContract A F.suits) (fun _ => P) bad s m := by
  rw [profile, Task.ensures_bind]
  refine (repeated_ensures h hP).imp_ok fun _ s₁ m₁ hP₁ => ?_
  rw [Task.ensures_bind]
  apply ensures_clock
  intro start
  rw [Task.ensures_bind]
  refine (repeated_ensures h hP₁).imp_ok fun _ s₂ m₂ hP₂ => ?_
  rw [Task.ensures_bind]
  apply ensures_clock
  intro stop
  rw [Task.ensures_ofExcept]
  exact ⟨fun _ _ => hP₂, fun e _ => hbad e s₂ m₂ hP₂⟩

end Measuring

namespace Session

open Descriptor DistributedVector.Vector

variable {V : Type} {A : Arithmetic V} {F : Fleet} {m : Memory} {s : Session}

/-- A task that answers boundaries, if the devices may be used alone; they need not be accepted
ones. -/
def Performs (A : Arithmetic V) (F : Fleet)
    (perform : Int → List DeviceId → Task Session (List Int)) : Prop :=
  ∀ n devices s m, s.Sound F → (∀ d ∈ devices, F.inUse [d]) → (perform n devices).Ensures
    (deviceContract A F.suits) (fun _ s' m' => Session.Kept F m s' m')
    (fun _ s' m' => Session.Kept F m s' m') s m

/-- The strategy in force is consulted; a session without one takes up partition by throughput. -/
theorem consult_ensures {perform : Int → List DeviceId → Task Session (List Int)}
    (hperform : Performs A F perform) {n : Int} {devices : List DeviceId} (hs : s.Sound F)
    (hdevices : F.inUse devices) :
    (consult perform n devices).Ensures (deviceContract A F.suits)
      (fun _ s' m' => Session.Kept F m s' m') (fun _ s' m' => Session.Kept F m s' m') s m := by
  simp only [consult, currentStrategy, Task.ensures_bind, Task.ensures_get]
  split
  next strategy hstrategy =>
    rw [Task.ensures_pure]
    cases strategy with
    | equally => exact ⟨hs, .refl _ _ _⟩
    | performance => exact hperform n devices s m hs (hs.alone (.inr hstrategy) devices hdevices)
    | custom rule =>
      simp only [Task.ensures_bind, Task.ensures_get, Task.ensures_modify, ensures_orFault]
      have hkept : Session.Kept F m { s with asked := s.asked + 1 } m :=
        ⟨⟨hs.hardware, hs.config, hs.cache, hs.alone⟩, .refl _ _ _⟩
      exact ⟨fun _ _ => hkept, fun _ _ => hkept⟩
  next hnone =>
    simp only [Task.ensures_bind, Task.ensures_modify, Task.ensures_pure]
    have hs' : Session.Sound F { s with strategy := some .performance } :=
      ⟨hs.hardware, hs.config, hs.cache, fun _ => hs.alone (.inl hnone)⟩
    exact hperform n devices _ m hs' (hs.alone (.inl hnone) devices hdevices)

/-- Whatever the strategy in force answers, a session answers accepted boundaries. -/
theorem partitionWith_ensures {perform : Int → List DeviceId → Task Session (List Int)}
    (hperform : Performs A F perform) : Partitions A F (partitionWith perform) := by
  intro n devices s m hs hdevices
  rw [partitionWith, Task.ensures_bind]
  refine (consult_ensures hperform hs hdevices).imp_ok fun part s' m' hkept => ?_
  simp only [Task.ensures_bind, ensures_orFault, Task.ensures_pure]
  exact ⟨fun _ hvalid => ensures_report ⟨hkept, hvalid⟩, fun _ _ => hkept⟩

theorem partitionAlone_ensures : Partitions A F partitionAlone :=
  partitionWith_ensures fun _ _ _ _ hs _ => ⟨hs, .refl _ _ _⟩

/-- Adding vectors that have just been made stores into the first one only. -/
theorem addOnce_ensures {device : DeviceId} {a b c : Descriptor} (hs : s.Sound F)
    (hdevice : F.inUse [device]) (ha : a.Valid m) (hwritable : a.access ≠ .readOnly)
    (hdevices : a.devices = [device]) (hb : Readable m a b) (hc : Readable m a c) :
    (addOnce device a b c).Ensures (deviceContract A F.suits)
      (fun _ s' m' => s'.Sound F ∧ m.Differs a.buffers [] m')
      (fun _ s' m' => s'.Sound F ∧ m.Differs a.buffers [] m') s m := by
  simp only [addOnce, Task.ensures_bind, Task.ensures_get, Task.ensures_runOn]
  have huse : F.inUse a.devices := hdevices ▸ hdevice
  apply (kernelsFor_ensures hs huse).imp
  · intro kernels s' _ hpost
    obtain ⟨hs', rfl, hkernels⟩ := hpost
    -- the sum reads no vectors but the two operands
    have hlaunching := Launching.of_right (f := sumOf b c) ha huse hwritable hkernels fun w hw => by
      rcases List.mem_cons.mp hw with h | h
      · cases h
        exact hb
      · cases List.mem_singleton.mp h
        exact hc
    refine (dispatch_ensures (A := A) hlaunching hs'.hardware).imp ?_ fun e d' m' h =>
      ⟨hs', h.1.memory⟩
    intro _ d' m' hpost
    obtain ⟨htouched, -⟩ := hpost
    exact ensures_synchronize ⟨hs', htouched.memory⟩ fun _ => ⟨hs', htouched.memory⟩
  · intro e s' _ hpost
    obtain ⟨hs', rfl⟩ := hpost
    exact ⟨hs', .refl _ _ _⟩

/-- Measuring a device that may be used alone changes nothing that is there. -/
theorem measure_ensures {owner : SessionId} {device : DeviceId} (hs : s.Sound F)
    (hdevice : F.inUse [device]) :
    (measure owner device).Ensures (deviceContract A F.suits)
      (fun _ s' m' => Session.Kept F m s' m') (fun _ s' m' => Session.Kept F m s' m') s m := by
  simp only [measure, Task.ensures_bind]
  generalize hr : (⟨[device], benchmarkSize, none, .unspecified, .readWrite, owner, none⟩ :
    VectorRequest) = r
  have hdevices : r.devices = [device] := hr ▸ rfl
  have haccess : r.access = .readWrite := hr ▸ rfl
  have hcreate : ∀ {s : Session} {m}, s.Sound F →
      (Vector.create partitionAlone r).Ensures (deviceContract A F.suits)
      (fun d s' m' => Session.Kept F m s' m' ∧ Fresh m r d m')
      (fun _ s' m' => Session.Kept F m s' m') s m := fun hs =>
    create_ensures partitionAlone_ensures hs (hdevices ▸ hdevice)
  refine (hcreate hs).imp_ok ?_
  intro a s₁ m₁ hpost
  obtain ⟨⟨hs₁, hdiff₁⟩, ha⟩ := hpost
  refine (hcreate hs₁).imp ?_ fun _ _ _ h => h.after hdiff₁
  intro b s₂ m₂ hpost
  obtain ⟨⟨hs₂, hdiff₂⟩, hb⟩ := hpost
  refine (hcreate hs₂).imp ?_ fun _ _ _ h => (h.after hdiff₂).after hdiff₁
  intro c s₃ m₃ hpost
  obtain ⟨⟨hs₃, hdiff₃⟩, hc⟩ := hpost
  have hdiff : m.Differs [] [] m₃ := (hdiff₁.trans_same hdiff₂).trans_same hdiff₃
  -- a vector made after another one has none of its buffers
  have hapart : ∀ {w : Descriptor} {m'}, Fresh m' r w m₃ ∨ Fresh m' r w m₂ → a.Valid m' →
      ∀ x ∈ w.buffers, x ∉ a.buffers := by
    intro w m' hw ha x hx
    exact ha.notMem_of_new (hw.elim (fun h => h.new x hx) fun h => h.new x hx)
  have hreadable : ∀ {w : Descriptor} {m'}, w.Valid m₃ → Fresh m' r w m₃ ∨ Fresh m' r w m₂ →
      a.Valid m' → ∀ {m''}, m₃.Differs a.buffers [] m'' → Readable m'' a w := by
    intro w m' hv hw ha' m'' hd
    refine ⟨hv.of_differs hd, ?_, .inr (hapart hw ha')⟩
    rw [ha.layout hdevices]
    exact hw.elim (fun h => h.layout hdevices) fun h => h.layout hdevices
  have ha₂ : a.Valid m₂ := ha.valid.of_differs hdiff₂
  have ha₃ : a.Valid m₃ := ha₂.of_differs hdiff₃
  have hout : ∀ {s' : Session} {m'}, s'.Sound F ∧ m₃.Differs a.buffers [] m' →
      Session.Kept F m s' m' := fun h =>
    ⟨h.1, hdiff.trans h.2 (fun x hx => .inr (ha.new x hx)) fun _ hc => absurd hc List.not_mem_nil⟩
  have hadd : ∀ s' m', s'.Sound F ∧ m₃.Differs a.buffers [] m' →
      (addOnce device a b c).Ensures (deviceContract A F.suits)
        (fun _ s' m' => s'.Sound F ∧ m₃.Differs a.buffers [] m')
        (fun _ s' m' => Session.Kept F m s' m') s' m' := by
    intro s' m' hpost
    obtain ⟨hs', hd⟩ := hpost
    have hstep := addOnce_ensures (A := A) hs' hdevice (ha₃.of_differs hd)
      (by rw [ha.access, haccess]; decide) (ha.devices.trans hdevices)
      (hreadable (hb.valid.of_differs hdiff₃) (.inr hb) ha.valid hd)
      (hreadable hc.valid (.inl hc) ha₂ hd)
    exact hstep.imp (fun _ _ _ h => ⟨h.1, hd.trans_same h.2⟩)
      fun _ _ _ h => hout ⟨h.1, hd.trans_same h.2⟩
  refine (profile_ensures hadd (fun _ _ _ h => hout h) ⟨hs₃, .refl _ _ _⟩).imp_ok ?_
  intro ms s' m' h
  rw [Task.ensures_get]
  exact ensures_report (hout h)

/-- A device without a weight is measured, alone. -/
theorem weigh_ensures {owner : SessionId} {p : Weights × Session} {m₁ : Memory} {d : DeviceId}
    (hkept : Session.Kept F m p.2 m₁) (hd : F.inUse [d]) :
    (weigh (measure owner) d).Ensures (deviceContract A F.suits)
      (fun _ p' m' => Session.Kept F m p'.2 m') (fun _ p' m' => Session.Kept F m p'.2 m') p m₁ := by
  simp only [weigh, besideWeights, Task.ensures_bind, Task.ensures_get]
  split
  · exact hkept
  · simp only [Task.ensures_bind, Task.ensures_zoom, Task.ensures_modify, Task.ensures_pure]
    exact (measure_ensures hkept.1 hd).imp (fun _ _ _ h => h.after hkept.2)
      fun _ _ _ h => h.after hkept.2

theorem weighAll_ensures {owner : SessionId} {devices : List DeviceId} {p : Weights × Session}
    {m₁ : Memory} (hdevices : ∀ d ∈ devices, F.inUse [d]) (hkept : Session.Kept F m p.2 m₁) :
    (weighAll (measure owner) devices).Ensures (deviceContract A F.suits)
      (fun _ p' m' => Session.Kept F m p'.2 m') (fun _ p' m' => Session.Kept F m p'.2 m') p m₁ := by
  induction devices generalizing p m₁ with
  | nil => exact hkept
  | cons d rest ih =>
    simp only [weighAll, Task.ensures_bind, Task.ensures_pure]
    refine (weigh_ensures hkept (hdevices d List.mem_cons_self)).imp_ok fun _ _ _ h => ?_
    exact ih (fun d' hd' => hdevices d' (List.mem_cons_of_mem d hd')) h

/-- Partition by throughput measures devices that may be used alone. -/
theorem performance_ensures {owner : SessionId} : Performs A F (performance owner) := by
  intro n devices s m hs halone
  -- the weights that have been noted by then stay, also if a measurement fails
  have hsound : ∀ {p : Weights × Session} {m'}, Session.Kept F m p.2 m' →
      Session.Kept F m { p.2 with weights := p.1 } m' := fun h =>
    ⟨⟨h.1.hardware, h.1.config, h.1.cache, h.1.alone⟩, h.2⟩
  have hstart : Session.Kept F m s m := ⟨hs, .refl _ _ _⟩
  simp only [performance, onWeights, Task.ensures_zoom]
  unfold partitionByPerformance
  split
  · exact hsound hstart
  · simp only [Task.ensures_bind, ensures_orFault]
    have hstart' : Session.Kept F m (s.weights, s).2 m := hstart
    exact (weighAll_ensures halone hstart').imp
      (fun _ _ _ h => ⟨fun _ _ => hsound h, fun _ _ => hsound h⟩) fun _ _ _ h => hsound h

/-- A session answers accepted boundaries and changes nothing else. -/
theorem partition_ensures {owner : SessionId} : Partitions A F (partition owner) :=
  partitionWith_ensures performance_ensures

end Session

end DistributedVector
