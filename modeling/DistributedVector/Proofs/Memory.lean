import DistributedVector.Machine.Basic
import DistributedVector.Proofs.Overlay

/-!
# The memory of devices and host

What commands act on, seen from outside: the buffers of all devices and the arrays of the host, each
under its number. A command changes the contents of few of them and never what a buffer is, so most
of what is known survives it. This is said once, by the relation between memories that differ in the
contents of given buffers and arrays only and may have new ones.

## Main definitions

* `Memory`, `Memory.Span` — buffers and arrays, and ranges that lie in a buffer
* `Memory.Differs` — memories that agree outside given buffers and arrays

## Main results

* `Memory.Differs.trans` — changes add up, and changes to what is new do not count
-/

namespace DistributedVector

/-- The buffers of all devices and the arrays of the host. -/
@[ext] structure Memory where
  buffer : BufferId → Option Buffer
  cell : CellId → Option (Array Scalar)

namespace Memory

variable {m m' m'' : Memory}

/-- The memory with a buffer in place of another one or of none. -/
def setBuffer (m : Memory) (b : BufferId) (buf : Buffer) : Memory :=
  { m with buffer := fun b' => if b' = b then some buf else m.buffer b' }

/-- The memory with a host array in place of another one or of none. -/
def setCell (m : Memory) (c : CellId) (a : Array Scalar) : Memory :=
  { m with cell := fun c' => if c' = c then some a else m.cell c' }

@[simp] theorem setBuffer_buffer_self (m : Memory) (b : BufferId) (buf : Buffer) :
    (m.setBuffer b buf).buffer b = some buf := by simp [setBuffer]

theorem setBuffer_buffer_of_ne (m : Memory) {b b' : BufferId} (buf : Buffer) (h : b' ≠ b) :
    (m.setBuffer b buf).buffer b' = m.buffer b' := by simp [setBuffer, h]

/-- A buffer that is stored again changes nothing. -/
theorem setBuffer_self (m : Memory) {b : BufferId} {buf : Buffer} (h : m.buffer b = some buf) :
    m.setBuffer b buf = m := by
  refine Memory.ext (funext fun b' => ?_) rfl
  rcases eq_or_ne b' b with rfl | hne
  · rw [setBuffer_buffer_self, h]
  · exact setBuffer_buffer_of_ne m buf hne

@[simp] theorem setBuffer_cell (m : Memory) (b : BufferId) (buf : Buffer) :
    (m.setBuffer b buf).cell = m.cell := rfl

@[simp] theorem setCell_cell_self (m : Memory) (c : CellId) (a : Array Scalar) :
    (m.setCell c a).cell c = some a := by simp [setCell]

theorem setCell_cell_of_ne (m : Memory) {c c' : CellId} (a : Array Scalar) (h : c' ≠ c) :
    (m.setCell c a).cell c' = m.cell c' := by simp [setCell, h]

/-- A host array that is stored again changes nothing. -/
theorem setCell_self (m : Memory) {c : CellId} {a : Array Scalar} (h : m.cell c = some a) :
    m.setCell c a = m := by
  refine Memory.ext rfl (funext fun c' => ?_)
  rcases eq_or_ne c' c with rfl | hne
  · rw [setCell_cell_self, h]
  · exact setCell_cell_of_ne m a hne

@[simp] theorem setCell_buffer (m : Memory) (c : CellId) (a : Array Scalar) :
    (m.setCell c a).buffer = m.buffer := rfl

/-- `count` elements from `offset` on lie in the buffer `id` of a device, which is `buf`. -/
structure Span (m : Memory) (device : DeviceId) (b : Option BufferId) (offset : Int) (count : Nat)
    (id : BufferId) (buf : Buffer) : Prop where
  named : b = some id
  present : m.buffer id = some buf
  owned : buf.device = device
  lower : 0 ≤ offset
  upper : offset + count ≤ buf.data.size

theorem Span.room {device : DeviceId} {b : Option BufferId} {offset : Int} {count : Nat}
    {id : BufferId} {buf : Buffer} (h : m.Span device b offset count id buf) :
    offset.toNat + count ≤ buf.data.size := by
  have := h.lower
  have := h.upper
  omega

/-- The memories differ at most in the contents of the buffers in `B` and of the host arrays in `C`,
whose sizes stay, and in buffers and arrays that are new. -/
structure Differs (B : List BufferId) (C : List CellId) (m m' : Memory) : Prop where
  buffer : ∀ b buf, m.buffer b = some buf → ∃ data, data.size = buf.data.size ∧
    m'.buffer b = some { buf with data } ∧ (b ∉ B → data = buf.data)
  cell : ∀ c a, m.cell c = some a → ∃ a', a'.size = a.size ∧ m'.cell c = some a' ∧ (c ∉ C → a' = a)

namespace Differs

variable {B B' : List BufferId} {C C' : List CellId}

theorem refl (B : List BufferId) (C : List CellId) (m : Memory) : Differs B C m m :=
  ⟨fun _ buf h => ⟨buf.data, rfl, h, fun _ => rfl⟩, fun _ a h => ⟨a, rfl, h, fun _ => rfl⟩⟩

/-- What is neither changed nor new is as before. -/
theorem buffer_eq (h : Differs B C m m') {b : BufferId} {buf : Buffer} (hb : m.buffer b = some buf)
    (hB : b ∉ B) : m'.buffer b = some buf := by
  obtain ⟨data, -, hb', hdata⟩ := h.buffer b buf hb
  rw [hb', hdata hB]

theorem cell_eq (h : Differs B C m m') {c : CellId} {a : Array Scalar} (hc : m.cell c = some a)
    (hC : c ∉ C) : m'.cell c = some a := by
  obtain ⟨a', -, hc', ha⟩ := h.cell c a hc
  rw [hc', ha hC]

/-- What is new after a change was new before. -/
theorem buffer_eq_none (h : Differs B C m m') {b : BufferId} (hb : m'.buffer b = none) :
    m.buffer b = none := by
  cases hm : m.buffer b with
  | none => rfl
  | some buf =>
    obtain ⟨data, -, hb', -⟩ := h.buffer b buf hm
    simp [hb] at hb'

/-- Changes add up; what is changed later has to have been changed before or to be new. -/
theorem trans (h : Differs B C m m') (h' : Differs B' C' m' m'')
    (hB : ∀ b ∈ B', b ∈ B ∨ m.buffer b = none) (hC : ∀ c ∈ C', c ∈ C ∨ m.cell c = none) :
    Differs B C m m'' := by
  constructor
  · intro b buf hb
    obtain ⟨data, hsize, hb', hdata⟩ := h.buffer b buf hb
    obtain ⟨data', hsize', hb'', hdata'⟩ := h'.buffer b _ hb'
    refine ⟨data', hsize'.trans hsize, hb'', fun hnot => ?_⟩
    have hnew : b ∉ B' := fun hmem => (hB b hmem).elim hnot (by simp [hb])
    rw [hdata' hnew, hdata hnot]
  · intro c a hc
    obtain ⟨a', hsize, hc', ha⟩ := h.cell c a hc
    obtain ⟨a'', hsize', hc'', ha'⟩ := h'.cell c a' hc'
    refine ⟨a'', hsize'.trans hsize, hc'', fun hnot => ?_⟩
    have hnew : c ∉ C' := fun hmem => (hC c hmem).elim hnot (by simp [hc])
    rw [ha' hnew, ha hnot]

theorem mono (h : Differs B C m m') (hB : B ⊆ B') (hC : C ⊆ C') : Differs B' C' m m' :=
  ⟨fun b buf hb =>
    let ⟨data, hsize, hb', hdata⟩ := h.buffer b buf hb
    ⟨data, hsize, hb', fun hnot => hdata fun hmem => hnot (hB hmem)⟩,
  fun c a hc =>
    let ⟨a', hsize, hc', ha⟩ := h.cell c a hc
    ⟨a', hsize, hc', fun hnot => ha fun hmem => hnot (hC hmem)⟩⟩

/-- Changes to the same buffers and arrays add up. -/
theorem trans_same (h : Differs B C m m') (h' : Differs B C m' m'') : Differs B C m m'' :=
  h.trans h' (fun _ hb => .inl hb) fun _ hc => .inl hc

/-- Some buffers change, and then others. -/
theorem append (h : Differs B C m m') (h' : Differs B' C m' m'') : Differs (B ++ B') C m m'' :=
  (h.mono (List.subset_append_left _ _) (List.Subset.refl _)).trans_same
    (h'.mono (List.subset_append_right _ _) (List.Subset.refl _))

/-- Changing the contents of one buffer. -/
theorem setBuffer {b : BufferId} {buf : Buffer} (hb : m.buffer b = some buf)
    {data : Array Scalar} (hsize : data.size = buf.data.size) :
    Differs [b] [] m (m.setBuffer b { buf with data }) := by
  refine ⟨fun b' buf' hb' => ?_, fun c a hc => ⟨a, rfl, hc, fun _ => rfl⟩⟩
  rcases eq_or_ne b' b with rfl | hne
  · obtain rfl := Option.some_inj.mp (hb.symm.trans hb')
    exact ⟨data, hsize, setBuffer_buffer_self _ _ _, fun hnot => absurd List.mem_cons_self hnot⟩
  · exact ⟨buf'.data, rfl, (setBuffer_buffer_of_ne _ _ hne).trans hb', fun _ => rfl⟩

/-- Adding a buffer. -/
theorem newBuffer {b : BufferId} (buf : Buffer) (hb : m.buffer b = none) :
    Differs [] [] m (m.setBuffer b buf) := by
  refine ⟨fun b' buf' hb' => ?_, fun c a hc => ⟨a, rfl, hc, fun _ => rfl⟩⟩
  have hne : b' ≠ b := by
    rintro rfl
    simp [hb] at hb'
  exact ⟨buf'.data, rfl, (setBuffer_buffer_of_ne _ _ hne).trans hb', fun _ => rfl⟩

/-- Changing the contents of one host array. -/
theorem setCell {c : CellId} {a a' : Array Scalar} (hc : m.cell c = some a)
    (hsize : a'.size = a.size) : Differs [] [c] m (m.setCell c a') := by
  refine ⟨fun b buf hb => ⟨buf.data, rfl, hb, fun _ => rfl⟩, fun c' a'' hc' => ?_⟩
  rcases eq_or_ne c' c with rfl | hne
  · obtain rfl := Option.some_inj.mp (hc.symm.trans hc')
    exact ⟨a', hsize, setCell_cell_self _ _ _, fun hnot => absurd List.mem_cons_self hnot⟩
  · exact ⟨a'', rfl, (setCell_cell_of_ne _ _ hne).trans hc', fun _ => rfl⟩

/-- Adding a host array. -/
theorem newCell {c : CellId} (a : Array Scalar) (hc : m.cell c = none) :
    Differs [] [] m (m.setCell c a) := by
  refine ⟨fun b buf hb => ⟨buf.data, rfl, hb, fun _ => rfl⟩, fun c' a' hc' => ?_⟩
  have hne : c' ≠ c := by
    rintro rfl
    simp [hc] at hc'
  exact ⟨a', rfl, (setCell_cell_of_ne _ _ hne).trans hc', fun _ => rfl⟩

/-- Whatever is done with an array that has just been added, what was there before stays. -/
theorem of_newCell {c : CellId} (a : Array Scalar) (hc : m.cell c = none)
    (h : Differs [] [c] (m.setCell c a) m') : Differs [] [] m m' :=
  (newCell a hc).trans h (fun _ hb => absurd hb List.not_mem_nil) fun _ hmem =>
    .inr (List.mem_singleton.mp hmem ▸ hc)

end Differs

end Memory

end DistributedVector
