import DistributedVector.Proofs.Memory
import DistributedVector.Store.Basic

/-!
# Vectors in memory

The contents of a vector are the contents of its buffers, one after the other. A vector is valid in
a memory if every shard with elements has a buffer of its own that fits it. Transfers and launches
change neither this nor anything but contents and events, so that a description of a vector is known
up to the events noted in it.

## Main definitions

* `Shard.contents`, `Descriptor.contents` — the elements
* `Shard.Valid`, `ShardsValid`, `Descriptor.Valid` — buffers fit the shards
* `Descriptor.forget` — a vector without its events
* `Descriptor.Touched` — what an operation inside a vector may change

## Main results

* `Descriptor.Valid.length_contents` — there are as many elements as the vector says
* `Descriptor.Valid.of_differs`, `Descriptor.Valid.contents_of_differs` — what survives a change of
  memory
-/

namespace DistributedVector

variable {m m' m'' : Memory} {type : ElementType} {access : Access} {B B' : List BufferId}
  {C C' : List CellId}

theorem total_append (ms ns : List Nat) : total (ms ++ ns) = total ms + total ns := by
  induction ms with
  | nil => simp [total]
  | cons m rest ih => rw [List.cons_append, total, total, ih, Nat.add_assoc]

/-- A boundary is the sum of the lengths before it. -/
theorem getElem?_boundariesOf {start k : Nat} {ns : List Nat} (h : k ≤ ns.length) :
    (boundariesOf start ns)[k]? = some (start + total (ns.take k)) := by
  induction ns generalizing start k with
  | nil =>
    obtain rfl : k = 0 := Nat.le_zero.mp h
    rfl
  | cons n rest ih =>
    cases k with
    | zero => rfl
    | succ k =>
      rw [boundariesOf, List.getElem?_cons_succ, ih (Nat.le_of_succ_le_succ h), List.take_succ_cons,
        total, Nat.add_assoc]

namespace Shard

/-- The elements of a shard. -/
def contents (m : Memory) (s : Shard) : List Scalar :=
  ((s.buffer.bind m.buffer).map (·.data.toList)).getD []

/-- A shard without elements has no buffer; any other one has a buffer on its device that holds its
elements. -/
structure Valid (m : Memory) (type : ElementType) (access : Access) (s : Shard) : Prop where
  absent : s.buffer = none ↔ s.length = 0
  present : ∀ b, s.buffer = some b → ∃ data : Array Scalar, data.size = s.length ∧
    m.buffer b = some ⟨s.device, type, access, data⟩

/-- The shard without its event. -/
def forget (s : Shard) : Shard := { s with event := none }

variable {s : Shard}

theorem contents_of_buffer {b : BufferId} {buf : Buffer} (hb : s.buffer = some b)
    (hbuf : m.buffer b = some buf) : s.contents m = buf.data.toList := by
  simp [contents, hb, hbuf]

theorem contents_of_none (hb : s.buffer = none) : s.contents m = [] := by simp [contents, hb]

/-- The buffer of a shard that has elements. -/
theorem Valid.buffer (h : s.Valid m type access) (hs : s.length ≠ 0) :
    ∃ b, ∃ data : Array Scalar, s.buffer = some b ∧ data.size = s.length ∧
      m.buffer b = some ⟨s.device, type, access, data⟩ ∧ s.contents m = data.toList := by
  obtain ⟨b, hb⟩ := Option.ne_none_iff_exists'.mp (mt h.absent.mp hs)
  obtain ⟨data, hsize, hbuf⟩ := h.present b hb
  exact ⟨b, data, hb, hsize, hbuf, contents_of_buffer hb hbuf⟩

/-- Elements of a shard lie in its buffer. -/
theorem Valid.span (h : s.Valid m type access) (offset : Int) (count : Nat) {device : DeviceId}
    (hdevice : s.device = device) (hs : s.length ≠ 0) (hoffset : 0 ≤ offset)
    (hroom : offset + count ≤ s.length) :
    ∃ b, ∃ data : Array Scalar, s.buffer = some b ∧ data.size = s.length ∧
    s.contents m = data.toList ∧
      m.Span device s.buffer offset count b ⟨s.device, type, access, data⟩ := by
  obtain ⟨b, data, hb, hsize, hbuf, hcontents⟩ := h.buffer hs
  exact ⟨b, data, hb, hsize, hcontents, hb, hbuf, hdevice, hoffset, hsize.symm ▸ hroom⟩

theorem Valid.length_contents (h : s.Valid m type access) : (s.contents m).length = s.length := by
  by_cases hs : s.length = 0
  · rw [contents_of_none (h.absent.mpr hs), hs]
    rfl
  · obtain ⟨b, data, -, hsize, -, hcontents⟩ := h.buffer hs
    rw [hcontents, Array.length_toList, hsize]

theorem Valid.of_differs (h : s.Valid m type access) (hd : m.Differs B C m') :
    s.Valid m' type access := by
  refine ⟨h.absent, fun b hb => ?_⟩
  obtain ⟨data, hsize, hbuf⟩ := h.present b hb
  obtain ⟨data', hsize', hbuf', -⟩ := hd.buffer b _ hbuf
  exact ⟨data', hsize'.trans hsize, hbuf'⟩

theorem Valid.contents_of_differs (h : s.Valid m type access) (hd : m.Differs B C m')
    (hB : ∀ b, s.buffer = some b → b ∉ B) : s.contents m' = s.contents m := by
  cases hb : s.buffer with
  | none => rw [contents_of_none hb, contents_of_none hb]
  | some b =>
    obtain ⟨data, -, hbuf⟩ := h.present b hb
    rw [contents_of_buffer hb hbuf, contents_of_buffer hb (hd.buffer_eq hbuf (hB b hb))]

end Shard

section Shards

variable {s : Shard} {shards : List Shard}

/-- The buffers of shards. -/
def buffersOf (shards : List Shard) : List BufferId := shards.filterMap (·.buffer)

/-- The elements of shards, one shard after the other. -/
def contentsOf (m : Memory) (shards : List Shard) : List Scalar := shards.flatMap (·.contents m)

/-- All shards are valid, and no two of them share a buffer. -/
structure ShardsValid (m : Memory) (type : ElementType) (access : Access) (shards : List Shard) :
    Prop where
  each : ∀ s ∈ shards, s.Valid m type access
  distinct : (buffersOf shards).Nodup

@[simp] theorem contentsOf_nil : contentsOf m [] = [] := rfl

@[simp] theorem contentsOf_cons :
    contentsOf m (s :: shards) = s.contents m ++ contentsOf m shards := rfl

theorem contentsOf_append (before after : List Shard) :
    contentsOf m (before ++ after) = contentsOf m before ++ contentsOf m after := by
  simp [contentsOf]

@[simp] theorem buffersOf_cons : buffersOf (s :: shards) = s.buffer.toList ++ buffersOf shards := by
  cases h : s.buffer <;> simp [buffersOf, h]

theorem buffersOf_append (before after : List Shard) :
    buffersOf (before ++ after) = buffersOf before ++ buffersOf after := List.filterMap_append

theorem buffersOf_append_singleton (before : List Shard) (s : Shard) :
    buffersOf (before ++ [s]) = buffersOf before ++ s.buffer.toList := by
  rw [buffersOf_append, buffersOf_cons]
  exact congrArg _ (List.append_nil _)

theorem total_append_singleton (before : List Shard) (s : Shard) :
    total ((before ++ [s]).map (·.length)) = total (before.map (·.length)) + s.length := by
  rw [List.map_append, total_append]
  rfl

theorem mem_buffersOf {b : BufferId} : b ∈ buffersOf shards ↔ ∃ s ∈ shards, s.buffer = some b := by
  simp [buffersOf]

theorem singleton_subset_buffersOf (hs : s ∈ shards) {b : BufferId} (hb : s.buffer = some b) :
    [b] ⊆ buffersOf shards :=
  List.cons_subset.mpr ⟨mem_buffersOf.mpr ⟨s, hs, hb⟩, List.nil_subset _⟩

theorem mem_buffersOf_cons {b : BufferId} (hb : b ∈ buffersOf shards) :
    b ∈ buffersOf (s :: shards) := by
  rw [buffersOf_cons]
  exact List.mem_append_right _ hb

theorem toList_subset_buffersOf_cons : s.buffer.toList ⊆ buffersOf (s :: shards) := by
  rw [buffersOf_cons]
  exact List.subset_append_left _ _

/-- Shards of lists that share no buffer have different buffers. -/
theorem ne_of_apart {s' : Shard} {shards' : List Shard} {b b' : BufferId}
    (hapart : ∀ b ∈ buffersOf (s :: shards), b ∉ buffersOf (s' :: shards')) (hb : s.buffer = some b)
    (hb' : s'.buffer = some b') : b ≠ b' := by
  rintro rfl
  exact hapart b (mem_buffersOf.mpr ⟨s, List.mem_cons_self, hb⟩)
    (mem_buffersOf.mpr ⟨s', List.mem_cons_self, hb'⟩)

/-- What is known of the elements of the first shard, and of those of the others, is known of
all. -/
theorem getElem?_contentsOf_cons {g : Nat → Option Scalar} (hs : (s.contents m).length = s.length)
    (hfirst : ∀ i, i < s.length → g i = (s.contents m)[i]?)
    (hothers : ∀ i, i < total (shards.map (·.length)) →
      g (s.length + i) = (contentsOf m shards)[i]?) :
    ∀ i, i < total ((s :: shards).map (·.length)) → g i = (contentsOf m (s :: shards))[i]? := by
  intro i hi
  rw [List.map_cons, total] at hi
  rw [contentsOf_cons]
  by_cases his : i < s.length
  · rw [hfirst i his, List.getElem?_append_left (hs ▸ his)]
  · have hbehind := hothers (i - s.length) (by omega)
    rw [Nat.add_sub_cancel' (Nat.le_of_not_lt his)] at hbehind
    rw [hbehind, List.getElem?_append_right (by omega), hs]

namespace ShardsValid

theorem nil : ShardsValid m type access [] := ⟨nofun, List.nodup_nil⟩

theorem cons (hs : s.Valid m type access) (hshards : ShardsValid m type access shards)
    (hnew : ∀ b, s.buffer = some b → b ∉ buffersOf shards) :
    ShardsValid m type access (s :: shards) := by
  refine ⟨List.forall_mem_cons.mpr ⟨hs, hshards.each⟩, ?_⟩
  rw [buffersOf_cons]
  cases hb : s.buffer with
  | none => exact hshards.distinct
  | some b => exact List.nodup_cons.mpr ⟨hnew b hb, hshards.distinct⟩

theorem head (h : ShardsValid m type access (s :: shards)) : s.Valid m type access :=
  h.each s List.mem_cons_self

theorem tail (h : ShardsValid m type access (s :: shards)) : ShardsValid m type access shards := by
  refine ⟨fun s' hs' => h.each s' (List.mem_cons_of_mem _ hs'), ?_⟩
  have := h.distinct
  rw [buffersOf_cons] at this
  exact (List.nodup_append.mp this).2.1

/-- The buffer of the first shard is none of the others. -/
theorem head_notMem (h : ShardsValid m type access (s :: shards)) {b : BufferId}
    (hb : s.buffer = some b) : b ∉ buffersOf shards := by
  have := h.distinct
  rw [buffersOf_cons, hb] at this
  exact (List.nodup_cons.mp this).1

theorem append_left {after : List Shard} (h : ShardsValid m type access (shards ++ after)) :
    ShardsValid m type access shards := by
  refine ⟨fun s hs => h.each s (List.mem_append_left _ hs), ?_⟩
  have := h.distinct
  rw [buffersOf_append] at this
  exact (List.nodup_append.mp this).1

/-- The buffer of a shard is none of those of other shards. -/
theorem middle_notMem {after : List Shard} (h : ShardsValid m type access (shards ++ s :: after))
    {b : BufferId} (hb : s.buffer = some b) : b ∉ buffersOf shards ∧ b ∉ buffersOf after := by
  have := h.distinct
  rw [buffersOf_append, buffersOf_cons, hb] at this
  obtain ⟨-, hafter, hbefore⟩ := List.nodup_append.mp this
  exact ⟨fun hmem => hbefore b hmem b List.mem_cons_self rfl, (List.nodup_cons.mp hafter).1⟩

theorem append_right {after : List Shard} (h : ShardsValid m type access (shards ++ after)) :
    ShardsValid m type access after := by
  refine ⟨fun s hs => h.each s (List.mem_append_right _ hs), ?_⟩
  have := h.distinct
  rw [buffersOf_append] at this
  exact (List.nodup_append.mp this).2.1

theorem of_differs (h : ShardsValid m type access shards) (hd : m.Differs B C m') :
    ShardsValid m' type access shards :=
  ⟨fun s hs => (h.each s hs).of_differs hd, h.distinct⟩

theorem contents_of_differs (h : ShardsValid m type access shards) (hd : m.Differs B C m')
    (hB : ∀ b ∈ buffersOf shards, b ∉ B) : contentsOf m' shards = contentsOf m shards := by
  rw [contentsOf, contentsOf, List.flatMap_def, List.flatMap_def]
  refine congrArg List.flatten (List.map_congr_left fun s hs => ?_)
  exact (h.each s hs).contents_of_differs hd fun b hb => hB b (mem_buffersOf.mpr ⟨s, hs, hb⟩)

/-- A change of the buffer of the first shard leaves the others alone. -/
theorem tail_contents_of_head (h : ShardsValid m type access (s :: shards)) {b : BufferId}
    (hb : s.buffer = some b) (hd : m.Differs [b] C m') :
    contentsOf m' shards = contentsOf m shards :=
  h.tail.contents_of_differs hd fun _ hmem hmem' =>
    h.head_notMem hb (List.mem_singleton.mp hmem' ▸ hmem)

/-- So does a change of a buffer of shards that share none with them. -/
theorem tail_contents_of_apart {s' : Shard} {shards' : List Shard}
    (h : ShardsValid m type access (s :: shards))
    (hapart : ∀ b ∈ buffersOf (s :: shards), b ∉ buffersOf (s' :: shards')) {b : BufferId}
    (hb : s'.buffer = some b) (hd : m.Differs [b] C m') :
    contentsOf m' shards = contentsOf m shards := by
  refine h.tail.contents_of_differs hd fun x hx hmem => hapart x (mem_buffersOf_cons hx) ?_
  rw [List.mem_singleton.mp hmem]
  exact mem_buffersOf.mpr ⟨s', List.mem_cons_self, hb⟩

/-- What is in the buffer of the first shard stays there when the others change. -/
theorem head_contents_of_tail (h : ShardsValid m type access (s :: shards))
    {b : BufferId} {buf : Buffer} (hb : s.buffer = some b) (hbuf : m'.buffer b = some buf)
    (hd : m'.Differs (buffersOf shards) C m'') : s.contents m'' = buf.data.toList :=
  Shard.contents_of_buffer hb (hd.buffer_eq hbuf (h.head_notMem hb))

/-- There are as many elements as the lengths say. -/
theorem length_contents (h : ShardsValid m type access shards) :
    (contentsOf m shards).length = total (shards.map (·.length)) := by
  induction shards with
  | nil => rfl
  | cons s rest ih =>
    rw [contentsOf_cons, List.length_append, h.head.length_contents, ih h.tail]
    rfl

end ShardsValid

/-- Shards side by side that agree in something. -/
theorem zip_shards {α : Type} {f : Shard → α} {others : List Shard}
    (h : shards.map f = others.map f) :
    (shards.zip others).map (·.1) = shards ∧ (shards.zip others).map (·.2) = others ∧
      ∀ q ∈ shards.zip others, f q.1 = f q.2 := by
  have hlength : shards.length = others.length := by simpa using congrArg List.length h
  refine ⟨List.map_fst_zip (Nat.le_of_eq hlength), List.map_snd_zip (Nat.le_of_eq hlength.symm),
    fun q hq => ?_⟩
  obtain ⟨i, hi⟩ := List.getElem?_of_mem hq
  obtain ⟨hi₁, hi₂⟩ := List.getElem?_zip_eq_some.mp hi
  simpa [hi₁, hi₂] using congrArg (·[i]?) h

end Shards

namespace Descriptor

variable {d d' d'' : Descriptor}

/-- The elements of a vector. -/
def contents (m : Memory) (d : Descriptor) : List Scalar := contentsOf m d.shards

/-- The buffers of a vector. -/
def buffers (d : Descriptor) : List BufferId := buffersOf d.shards

/-- The elements of a vector are those in its buffers. -/
theorem contents_congr {d : Descriptor} (h : ∀ b ∈ d.buffers, m'.buffer b = m.buffer b) :
    d.contents m' = d.contents m := by
  refine List.flatMap_congr fun s hs => ?_
  cases hb : s.buffer with
  | none => rw [Shard.contents_of_none hb, Shard.contents_of_none hb]
  | some b => simp only [Shard.contents, hb, Option.bind_some, h b (mem_buffersOf.mpr ⟨s, hs, hb⟩)]

/-- Every shard has a buffer of its own that fits it. -/
def Valid (m : Memory) (d : Descriptor) : Prop := ShardsValid m d.type d.access d.shards

/-- The vector without its events. -/
def forget (d : Descriptor) : Descriptor := { d with shards := d.shards.map Shard.forget }

@[simp] theorem forget_forget : d.forget.forget = d.forget := by
  simp [forget, Shard.forget, Function.comp_def]

@[simp] theorem forget_setEvent (shard : Nat) (e : Event) :
    (d.setEvent shard e).forget = d.forget := by
  have h : (d.shards.modify shard fun s => { s with event := some e }).map Shard.forget =
      d.shards.map Shard.forget := by
    apply List.ext_getElem?
    intro i
    simp only [List.getElem?_map, List.getElem?_modify]
    split
    · cases d.shards[i]? <;> rfl
    · simp
  exact congrArg (fun shards => { d with shards }) h

section Same

variable (h : d'.forget = d.forget)
include h

theorem type_of_forget : d'.type = d.type :=
  show d'.forget.type = d.forget.type from congrArg Descriptor.type h

theorem access_of_forget : d'.access = d.access :=
  show d'.forget.access = d.forget.access from congrArg Descriptor.access h

theorem session_of_forget : d'.session = d.session :=
  show d'.forget.session = d.forget.session from congrArg Descriptor.session h

/-- Vectors that agree up to events have shards that do. -/
theorem map_shards_of_forget {α : Type} {f : Shard → α} (hf : ∀ s, f s.forget = f s) :
    d'.shards.map f = d.shards.map f := by
  have hshards := congrArg (fun d => d.shards.map f) h
  simpa [forget, Function.comp_def, hf] using hshards

theorem lengths_of_forget : d'.lengths = d.lengths := map_shards_of_forget h fun _ => rfl

theorem size_of_forget : d'.size = d.size := congrArg total (lengths_of_forget h)

theorem devices_of_forget : d'.devices = d.devices := map_shards_of_forget h fun _ => rfl

theorem boundaries_of_forget : d'.boundaries = d.boundaries :=
  congrArg (boundariesOf 0) (lengths_of_forget h)

theorem buffers_of_forget : d'.buffers = d.buffers := by
  have := map_shards_of_forget (f := (·.buffer)) h fun _ => rfl
  have hreduce : ∀ shards : List Shard,
      buffersOf shards = (shards.map (·.buffer)).filterMap id := fun shards => by
    rw [List.filterMap_map]
    rfl
  rw [buffers, buffers, hreduce, hreduce, this]

theorem contents_of_forget : d'.contents m = d.contents m := by
  have := map_shards_of_forget (f := (·.contents m)) h fun _ => rfl
  rw [contents, contents, contentsOf, contentsOf, List.flatMap_def, List.flatMap_def, this]

end Same

theorem Valid.of_forget (hv : d.Valid m) (h : d'.forget = d.forget) : d'.Valid m := by
  refine ⟨fun s' hs' => ?_, ?_⟩
  · -- a shard without its event is a shard of `d` without its event
    have hmem : s'.forget ∈ d.shards.map Shard.forget := by
      have hshards : d'.shards.map Shard.forget = d.shards.map Shard.forget :=
        map_shards_of_forget h fun _ => rfl
      rw [← hshards]
      exact List.mem_map_of_mem hs'
    obtain ⟨s, hs, heq⟩ := List.mem_map.mp hmem
    rw [type_of_forget h, access_of_forget h]
    have hvalid : s.forget.Valid m d.type d.access :=
      ⟨(hv.each s hs).absent, (hv.each s hs).present⟩
    rw [heq] at hvalid
    exact ⟨hvalid.absent, hvalid.present⟩
  · have := hv.distinct
    rwa [← buffers, ← buffers_of_forget h] at this

theorem Valid.of_differs (hv : d.Valid m) (hd : m.Differs B C m') : d.Valid m' :=
  ShardsValid.of_differs hv hd

theorem Valid.contents_of_differs (hv : d.Valid m) (hd : m.Differs B C m')
    (hB : ∀ b ∈ d.buffers, b ∉ B) : d.contents m' = d.contents m :=
  ShardsValid.contents_of_differs hv hd hB

/-- There are as many elements as the vector says. -/
theorem Valid.length_contents (hv : d.Valid m) : (d.contents m).length = d.size :=
  ShardsValid.length_contents hv

/-- A buffer that is not there yet is none of the vector. -/
theorem Valid.notMem_of_new (hv : d.Valid m) {b : BufferId} (hb : m.buffer b = none) :
    b ∉ d.buffers := by
  intro hmem
  obtain ⟨s, hs, hbuffer⟩ := mem_buffersOf.mp hmem
  obtain ⟨data, -, hsome⟩ := (hv.each s hs).present b hbuffer
  simp [hb] at hsome

/-- What an operation inside a vector may change: events, and the contents of buffers and arrays. -/
structure Touched (B : List BufferId) (C : List CellId) (d : Descriptor) (m : Memory)
    (d' : Descriptor) (m' : Memory) : Prop where
  same : d'.forget = d.forget
  memory : m.Differs B C m'

namespace Touched

variable {shard : Nat} {e : Event}

theorem refl (B : List BufferId) (C : List CellId) (d : Descriptor) (m : Memory) :
    Touched B C d m d m := ⟨rfl, .refl B C m⟩

theorem trans (h : Touched B C d m d' m') (h' : Touched B C d' m' d'' m'') :
    Touched B C d m d'' m'' := ⟨h'.same.trans h.same, h.memory.trans_same h'.memory⟩

/-- A command whose event is noted, and what follows it. -/
theorem after (h : Touched B C (d.setEvent shard e) m' d' m'') (hd : m.Differs B' C' m')
    (hB : B' ⊆ B) (hC : C' ⊆ C) : Touched B C d m d' m'' :=
  ⟨h.same.trans (forget_setEvent shard e), (hd.mono hB hC).trans_same h.memory⟩

theorem mono (h : Touched B C d m d' m') (hB : B ⊆ B') (hC : C ⊆ C') : Touched B' C' d m d' m' :=
  ⟨h.same, h.memory.mono hB hC⟩

theorem widen (h : Touched B C d m d' m') (hB : B ⊆ B') : Touched B' C d m d' m' :=
  h.mono hB (List.Subset.refl C)

theorem valid (h : Touched B C d m d' m') (hv : d.Valid m) : d'.Valid m' :=
  (hv.of_differs h.memory).of_forget h.same

end Touched

end Descriptor

/-- The rows of a view lie in the array that it is a view of. -/
def HostView.Valid (m : Memory) (view : HostView) : Prop :=
  ∃ a, m.cell view.cell = some a ∧ view.offset + view.size ≤ a.size

/-- The elements of a view. -/
def HostView.values (m : Memory) (view : HostView) : List Scalar :=
  ((((m.cell view.cell).map Array.toList).getD []).drop view.offset).take view.size

end DistributedVector
