import DistributedVector.Proofs.Contents
import DistributedVector.Proofs.Devices

/-!
# Transfers move ranges

A transfer works on the pieces of a range, one for each shard that the range meets. Seen on the
contents of the vector, a write is one overlay and a read one part of a list, wherever the
boundaries lie.
-/

namespace DistributedVector

/-- A fault by which an operation refuses its arguments: their kind, their number or their
layout. -/
def Fault.Rejection (e : Fault) : Prop := e.kind = .type ∨ e.kind = .shape ∨ e.kind = .layout

theorem Fault.not_rejection_device (f : DeviceFault) : ¬ (Fault.device f).Rejection := by
  cases f <;> simp [Fault.Rejection, Fault.kind]

namespace Vector

open Descriptor

variable {V : Type} {A : Arithmetic V} {suits : DeviceId → KernelSource → Int → Prop}
  {m : Memory} {type : ElementType} {access : Access}

/-- What a failed command leaves of a vector. -/
def Failed (B : List BufferId) (C : List CellId) (d : Descriptor) (m : Memory) (e : Fault)
    (d' : Descriptor) (m' : Memory) : Prop :=
  (∃ f, e = .device f) ∧ Touched B C d m d' m'

/-- Writing the pieces of a range writes over the elements of the shards. -/
theorem startWrites_ensures {data : Array Scalar} {offset count : Nat} (hdata : data.size = count)
    {shards : List Shard} : ∀ {index start : Nat} {d : Descriptor} {m : Memory},
    ShardsValid m type access shards →
    (startWrites data (piecesFrom offset count index start shards)).Ensures (deviceContract A suits)
      (fun _ d' m' => Touched (buffersOf shards) [] d m d' m' ∧ contentsOf m' shards =
        revise (fun i => placed offset data.toList (start + i)) (contentsOf m shards))
      (Failed (buffersOf shards) [] d m) d m := by
  induction shards with
  | nil =>
    intro index start d m hv
    simp [piecesFrom, startWrites, Touched.refl]
  | cons s rest ih =>
    intro index start d m hv
    have hlength : (s.contents m).length = s.length := hv.head.length_contents
    have hvalues : data.toList.length = count := by simpa using hdata
    have hsub : buffersOf rest ⊆ buffersOf (s :: rest) := fun _ => mem_buffersOf_cons
    have hshift : (fun i => placed offset data.toList (start + ((s.contents m).length + i))) =
        fun i => placed offset data.toList (start + s.length + i) := by
      funext i
      rw [hlength, Nat.add_assoc]
    simp only [piecesFrom, contentsOf_cons]
    rw [revise_append, hshift]
    generalize hfirst : max offset start = first
    generalize hlast : min (offset + count) (start + s.length) = last
    split
    next hlt =>
      -- the piece on this shard is written first, then those on the others
      have hchunk : (data.extract (first - offset) (first - offset + (last - first))).size =
          last - first := by
        rw [Array.size_extract]
        omega
      obtain ⟨b, buf, hb, hsize, hcontents, hspan⟩ := hv.head.span (first - start : Nat)
        (data.extract (first - offset) (first - offset + (last - first))).size rfl
        (by omega) (by omega)
        (by omega)
      have hmem : [b] ⊆ buffersOf (s :: rest) := singleton_subset_buffersOf List.mem_cons_self hb
      simp only [startWrites, Task.ensures_bind, Task.ensures_modify]
      refine ensures_write hspan (fun e values hvsize hvlist => ?_) fun e values hvsize => ?_
      · have hdiff := Memory.Differs.setBuffer hspan.present hvsize
        refine (ih (hv.tail.of_differs hdiff)).imp ?_ ?_
        · intro _ d' m' hpost
          obtain ⟨htouched, hrest⟩ := hpost
          refine ⟨(htouched.widen hsub).after hdiff hmem (List.Subset.refl _), ?_⟩
          have hmine : s.contents m' = values.toList :=
            hv.head_contents_of_tail hb (m.setBuffer_buffer_self b _) htouched.memory
          rw [hrest, hv.tail_contents_of_head hb hdiff, hmine, hvlist, toList_part, hcontents]
          refine congrArg (· ++ _) (revise_congr fun i hi => ?_)
          refine placed_piece hvalues hfirst.symm hlast.symm hlt ?_
          rwa [Array.length_toList, hsize] at hi
        · intro e' d' m' hpost
          obtain ⟨hdevice, htouched⟩ := hpost
          exact ⟨hdevice,
            (htouched.widen hsub).after hdiff hmem (List.Subset.refl _)⟩
      · exact ⟨⟨e, rfl⟩, rfl, (Memory.Differs.setBuffer hspan.present hvsize).mono hmem
          (List.Subset.refl _)⟩
    next hge =>
      refine (ih hv.tail).imp ?_ ?_
      · intro _ d' m' hpost
        obtain ⟨htouched, hrest⟩ := hpost
        refine ⟨htouched.widen hsub, ?_⟩
        have hself : revise (fun i => placed offset data.toList (start + i)) (s.contents m) =
            s.contents m :=
          revise_eq_self fun i hi => placed_eq_none hvalues (by omega) (hlength ▸ hi)
        rw [hrest, hself]
        refine congrArg (· ++ _) (hv.head.contents_of_differs htouched.memory fun b hb hB => ?_)
        exact hv.head_notMem hb hB
      · intro e' d' m' hpost
        obtain ⟨hdevice, htouched⟩ := hpost
        exact ⟨hdevice, htouched.widen hsub⟩

/-- Reading the pieces of a range gathers its elements in an array. -/
theorem startReads_ensures {view : HostView} {offset count : Nat} {shards : List Shard} :
    ∀ {index start : Nat} {d : Descriptor} {m : Memory} {a : Array Scalar},
    ShardsValid m type access shards → m.cell view.cell = some a → view.offset + count ≤ a.size →
    (startReads view (piecesFrom offset count index start shards)).Ensures (deviceContract A suits)
      (fun _ d' m' => Touched [] [view.cell] d m d' m' ∧ ∃ a', m'.cell view.cell = some a' ∧
        a'.toList = revise (gathered view.offset offset count start (contentsOf m shards)) a.toList)
      (Failed [] [view.cell] d m) d m := by
  induction shards with
  | nil =>
    intro index start d m a hv ha hroom
    simp only [piecesFrom, startReads, Task.ensures_pure, contentsOf_nil]
    refine ⟨.refl _ _ _ _, a, ha, (revise_eq_self fun i _ => ?_).symm⟩
    simp [gathered]
  | cons s rest ih =>
    intro index start d m a hv ha hroom
    have hlength : (s.contents m).length = s.length := hv.head.length_contents
    simp only [piecesFrom, contentsOf_cons]
    generalize hfirst : max offset start = first
    generalize hlast : min (offset + count) (start + s.length) = last
    have hgathered := funext <| gathered_append view.offset (contentsOf m rest)
      hlength hfirst.symm hlast.symm
    split
    next hlt =>
      -- the piece of this shard is read first, then those of the others
      obtain ⟨b, buf, hb, hsize, hcontents, hspan⟩ :=
        hv.head.span (first - start : Nat) (last - first)
        rfl (by omega) (by omega) (by omega)
      simp only [startReads, Task.ensures_bind, Task.ensures_modify]
      refine ensures_read hspan ha (by omega) (fun e a₁ hsize₁ hlist₁ => ?_) fun e a₁ hsize₁ => ?_
      · have hdiff := Memory.Differs.setCell ha hsize₁
        refine (ih (hv.tail.of_differs hdiff) (m.setCell_cell_self _ a₁) (hsize₁ ▸ hroom)).imp ?_ ?_
        · intro _ d' m' hpost
          obtain ⟨htouched, a', ha', hlist⟩ := hpost
          refine ⟨htouched.after hdiff (List.Subset.refl _) (List.Subset.refl _), a', ha', ?_⟩
          rw [hlist, hlist₁, overlay, revise_revise, hgathered,
            hv.tail.contents_of_differs hdiff fun _ _ => List.not_mem_nil]
          simp only [hlt, if_true, hcontents, Int.toNat_natCast]
        · intro e' d' m' hpost
          obtain ⟨hdevice, htouched⟩ := hpost
          exact ⟨hdevice, htouched.after hdiff (List.Subset.refl _) (List.Subset.refl _)⟩
      · exact ⟨⟨e, rfl⟩, rfl, Memory.Differs.setCell ha hsize₁⟩
    next hge =>
      refine (ih hv.tail ha hroom).imp_ok ?_
      intro _ d' m' hpost
      obtain ⟨htouched, a', ha', hlist⟩ := hpost
      refine ⟨htouched, a', ha', ?_⟩
      rw [hlist, hgathered]
      simp [hge]

theorem waitFor_ensures {pieces : List Piece} {d : Descriptor}
    {good : Unit → Descriptor → Memory → Prop} {bad : Fault → Descriptor → Memory → Prop}
    (hgood : good () d m) (hbad : ∀ e, bad (.device e) d m) :
    (waitFor pieces).Ensures (deviceContract A suits) good bad d m := by
  induction pieces with
  | nil => exact hgood
  | cons p rest ih =>
    simp only [waitFor, Task.ensures_bind, Task.ensures_get]
    split
    · rw [Task.ensures_bind]
      exact ensures_wait ih hbad
    · exact ih

/-- What a failed operation leaves of a vector: no change at all if it has refused its arguments. -/
def Stopped (B : List BufferId) (C : List CellId) (d : Descriptor) (m : Memory) (e : Fault)
    (d' : Descriptor) (m' : Memory) : Prop :=
  Touched B C d m d' m' ∧ (e.Rejection → d' = d ∧ m.Differs [] [] m')

/-- What a failed operation leaves of a vector, if it does not refuse its arguments. -/
def Broken (B : List BufferId) (C : List CellId) (d : Descriptor) (m : Memory) (e : Fault)
    (d' : Descriptor) (m' : Memory) : Prop :=
  Touched B C d m d' m' ∧ ¬ e.Rejection

theorem Broken.stopped {B : List BufferId} {C : List CellId} {d d' : Descriptor} {m m' : Memory}
    {e : Fault} (h : Broken B C d m e d' m') : Stopped B C d m e d' m' :=
  ⟨h.1, fun hr => absurd hr h.2⟩

theorem Failed.broken {B : List BufferId} {C : List CellId} {d d' : Descriptor} {m m' : Memory}
    {e : Fault} (h : Failed B C d m e d' m') : Broken B C d m e d' m' := by
  obtain ⟨⟨f, rfl⟩, htouched⟩ := h
  exact ⟨htouched, Fault.not_rejection_device f⟩

theorem Failed.stopped {B : List BufferId} {C : List CellId} {d d' : Descriptor} {m m' : Memory}
    {e : Fault} (h : Failed B C d m e d' m') : Stopped B C d m e d' m' :=
  h.broken.stopped

theorem broken_self (B : List BufferId) (C : List CellId) (d : Descriptor) (m : Memory) {e : Fault}
    (he : ¬ e.Rejection) : Broken B C d m e d m :=
  ⟨.refl B C d m, he⟩

/-- New buffers and arrays come before what a failed operation leaves. -/
theorem Broken.after {B : List BufferId} {C : List CellId} {d d' : Descriptor} {m m' m'' : Memory}
    {e : Fault} (h : Broken B C d m' e d' m'') (hd : m.Differs [] [] m') :
    Broken B C d m e d' m'' := by
  have hfirst : Touched B C d m d m' := ⟨rfl, hd.mono (List.nil_subset B) (List.nil_subset C)⟩
  exact ⟨hfirst.trans h.1, h.2⟩

/-- A range without elements, or one that lies in a vector of the given size. -/
def Covers (size : Nat) (offset count : Int) : Prop :=
  count = 0 ∨ 0 ≤ offset ∧ 0 ≤ count ∧ offset + count ≤ size

instance (size : Nat) (offset count : Int) : Decidable (Covers size offset count) :=
  inferInstanceAs (Decidable (_ ∨ _))

/-- The elements of a range of a list. -/
def part {α : Type} (offset count : Int) (xs : List α) : List α :=
  (xs.drop offset.toNat).take count.toNat

theorem length_part {α : Type} {offset count : Int} {xs : List α}
    (h : Covers xs.length offset count) : (part offset count xs).length = count.toNat := by
  rw [part, List.length_take, List.length_drop]
  rcases h with rfl | h <;> omega

theorem checkRange_eq_ok {d : Descriptor} {offset count : Int}
    (h : d.checkRange offset count = .ok ()) :
    0 ≤ offset ∧ 0 ≤ count ∧ offset + count ≤ d.size := by
  unfold Descriptor.checkRange at h
  split at h
  · cases h
  · omega

theorem checkRange_eq_error {d : Descriptor} {offset count : Int} {e : VectorFault}
    (h : d.checkRange offset count = .error e) : ¬ (Fault.vector e).Rejection := by
  unfold Descriptor.checkRange at h
  split at h
  · cases h
    simp [Fault.Rejection, Fault.kind, VectorFault.kind]
  · cases h

/-- As many numbers are taken from host data as asked for, if there are so many. -/
theorem size_of_elements {data : HostData} {t : ElementType} {count : Nat} {values : Array Scalar}
    (h : data.elements t count = .ok values) : values.size = min count data.values.size := by
  obtain ⟨xs, hxs, rfl⟩ := map_eq_ok_iff.mp h
  rw [List.size_toArray, length_of_mapM hxs, List.length_take, Array.length_toList]

/-- A write converts the first elements of the host data and lays them over the vector. It refuses
its arguments only for numbers that cannot be converted. -/
theorem write_ensures {offset count : Int} {data : HostData} {blocking : Bool} {d : Descriptor}
    (hv : d.Valid m) :
    (write offset count data blocking).Ensures (deviceContract A suits)
      (fun _ d' m' => Touched d.buffers [] d m d' m' ∧ Covers d.size offset count ∧
        ∃ values : Array Scalar, data.elements d.type count.toNat = .ok values ∧
          values.size = count.toNat ∧ d'.contents m' =
            overlay offset.toNat values.toList (d.contents m))
      (fun e d' m' => Touched d.buffers [] d m d' m' ∧
        (e.Rejection → ∃ f, data.elements d.type count.toNat = .error f)) d m := by
  simp only [write, checkRange, Task.ensures_bind, Task.ensures_get, Task.ensures_ite,
    Task.ensures_pure, Task.ensures_throw, ensures_orFault]
  refine ⟨fun hzero => ⟨.refl _ _ _ _, .inl hzero, #[], ?_, ?_, ?_⟩, fun hne => ⟨fun _ hrange =>
    ⟨fun values hvalues => ⟨fun _ => ⟨.refl _ _ _ _, fun hr => absurd hr ?_⟩, fun henough => ?_⟩,
      fun f hf => ⟨.refl _ _ _ _, fun _ => ⟨f, hf⟩⟩⟩,
    fun _ hrange => ⟨.refl _ _ _ _, fun hr => absurd hr (checkRange_eq_error hrange)⟩⟩⟩
  · simp [HostData.elements, hzero]
    rfl
  · simp [hzero]
  · simp
  · simp [Fault.Rejection, Fault.kind, VectorFault.kind]
  · obtain ⟨hoffset, hcount, hroom⟩ := checkRange_eq_ok hrange
    have hsize : values.size = count.toNat := by
      have := size_of_elements hvalues
      omega
    refine (startWrites_ensures hsize hv).imp ?_ fun _ _ _ h =>
      ⟨h.2, fun hr => absurd hr h.broken.2⟩
    intro _ d' m' hpost
    obtain ⟨htouched, hcontents⟩ := hpost
    have hdone : d'.contents m' = overlay offset.toNat values.toList (d.contents m) := by
      rw [contents_of_forget htouched.same]
      simp only [Nat.zero_add] at hcontents
      exact hcontents
    have hcovers : Covers d.size offset count := .inr ⟨hoffset, hcount, hroom⟩
    exact ⟨fun _ => waitFor_ensures ⟨htouched, hcovers, values, hvalues, hsize, hdone⟩ fun e =>
        ⟨htouched, fun hr => absurd hr (Fault.not_rejection_device e)⟩,
      fun _ => ⟨htouched, hcovers, values, hvalues, hsize, hdone⟩⟩

/-- The part of a read that follows the choice of the array. -/
def readInto (offset count : Int) (blocking : Bool) (view : HostView) :
    Task Descriptor HostView := do
  if count = 0 then return view
  checkRange offset count
  if view.size < count then throw (.vector (.targetTooShort view.size count))
  let pieces := (← get).pieces offset.toNat count.toNat
  startReads view pieces
  if blocking then waitFor pieces
  return view

theorem read_eq (offset count : Int) (goal : ReadTarget) (blocking : Bool) :
    read offset count goal blocking =
      (do readInto offset count blocking (← target (← get).type count goal)) := by
  simp only [read, readInto]

/-- A read lays the elements of its range over the array. -/
theorem readInto_ensures {offset count : Int} {blocking : Bool} {view : HostView} {d : Descriptor}
    {a : Array Scalar} (hv : d.Valid m) (ha : m.cell view.cell = some a)
    (hroom : view.offset + view.size ≤ a.size) :
    (readInto offset count blocking view).Ensures (deviceContract A suits)
      (fun view' d' m' => view' = view ∧ Touched [] [view.cell] d m d' m' ∧
        Covers d.size offset count ∧ ∃ a', m'.cell view.cell = some a' ∧
          a'.toList = overlay view.offset (part offset count (d.contents m)) a.toList)
      (Broken [] [view.cell] d m) d m := by
  simp only [readInto, checkRange, Task.ensures_bind, Task.ensures_get, Task.ensures_ite,
    Task.ensures_pure, Task.ensures_throw, ensures_orFault]
  refine ⟨fun hzero => ⟨trivial, .refl _ _ _ _, .inl hzero, a, ha, ?_⟩, fun hne => ⟨fun _ hrange =>
    ⟨fun _ => broken_self _ _ _ _ ?_, fun henough => ?_⟩,
    fun _ hrange => broken_self _ _ _ _ (checkRange_eq_error hrange)⟩⟩
  · simp [part, hzero]
  · simp [Fault.Rejection, Fault.kind, VectorFault.kind]
  · obtain ⟨hoffset, hcount, hinside⟩ := checkRange_eq_ok hrange
    have hcovers : Covers d.size offset count := .inr ⟨hoffset, hcount, hinside⟩
    refine (startReads_ensures hv ha (by omega)).imp ?_ fun _ _ _ h => h.broken
    intro _ d' m' hpost
    obtain ⟨htouched, a', ha', hlist⟩ := hpost
    rw [gathered_zero] at hlist
    refine ⟨fun _ => waitFor_ensures ⟨trivial, htouched, hcovers, a', ha', hlist⟩ fun e => ?_,
      fun _ => ⟨trivial, htouched, hcovers, a', ha', hlist⟩⟩
    exact Failed.broken ⟨⟨e, rfl⟩, htouched⟩

/-- The arrays that a read changes. -/
def ReadTarget.cells : ReadTarget → List CellId
  | .array view => [view.cell]
  | _ => []

/-- An array that a read is given is there. -/
def ReadTarget.Valid (m : Memory) : ReadTarget → Prop
  | .array view => view.Valid m
  | _ => True

/-- A read leaves in the array, which is the given one or a new one of the size of the range, the
elements of the range laid over what it held. -/
def ReadTarget.Filled (goal : ReadTarget) (type : ElementType) (count : Nat) (values : List Scalar)
    (m : Memory) (view : HostView) (m' : Memory) : Prop :=
  ∃ a a', m'.cell view.cell = some a' ∧ a'.toList = overlay view.offset values a.toList ∧
    match goal with
    | .fresh =>
      m.cell view.cell = none ∧ view = ⟨view.cell, 0, .element type, [count], true, true⟩ ∧
        a.size = count
    | .array v => view = v ∧ v.type = .element type ∧ m.cell v.cell = some a
    | .unsuitable => False

theorem read_ensures {offset count : Int} {goal : ReadTarget} {blocking : Bool} {d : Descriptor}
    (hv : d.Valid m) (hgoal : goal.Valid m) :
    (read offset count goal blocking).Ensures (deviceContract A suits)
      (fun view d' m' => Touched [] goal.cells d m d' m' ∧ Covers d.size offset count ∧
        goal.Filled d.type count.toNat (part offset count (d.contents m)) m view m')
      (Broken [] goal.cells d m) d m := by
  rw [read_eq]
  cases goal with
  | unsuitable =>
    simp only [target, Task.ensures_bind, Task.ensures_get, Task.ensures_throw]
    exact broken_self _ _ _ _ (by simp [Fault.Rejection, Fault.kind, VectorFault.kind])
  | array view =>
    obtain ⟨a, ha, hroom⟩ := hgoal
    simp only [target, Task.ensures_bind, Task.ensures_get, Task.ensures_throw, Task.ensures_ite,
      Task.ensures_pure]
    refine ⟨fun hsuits => (readInto_ensures hv ha hroom).imp ?_ fun _ _ _ h => h,
      fun _ => broken_self _ _ _ _ (by simp [Fault.Rejection, Fault.kind, VectorFault.kind])⟩
    intro view' d' m' hpost
    obtain ⟨rfl, htouched, hcovers, a', ha', hlist⟩ := hpost
    exact ⟨htouched, hcovers, a, a', ha', hlist, rfl, hsuits.1, ha⟩
  | fresh =>
    simp only [target, newArray, Task.ensures_bind, Task.ensures_get, Task.ensures_throw,
      Task.ensures_ite, Task.ensures_pure]
    refine ⟨fun _ => broken_self _ _ _ _ (by simp [Fault.Rejection, Fault.kind, VectorFault.kind]),
      fun hcount => ensures_hostArray fun c a hnew hsize => ?_⟩
    have hdiff := Memory.Differs.newCell a hnew
    -- the array is new, so seen from before nothing has changed
    have hnothing : ∀ {d' m'}, Touched [] [c] d (m.setCell c a) d' m' → Touched [] [] d m d' m' :=
      fun h => ⟨h.same, .of_newCell a hnew h.memory⟩
    refine (readInto_ensures (hv.of_differs hdiff) (m.setCell_cell_self c a) ?_).imp ?_ ?_
    · simp [HostView.size, volume, hsize]
    · intro view' d' m' hpost
      obtain ⟨rfl, htouched, hcovers, a', ha', hlist⟩ := hpost
      rw [hv.contents_of_differs hdiff fun _ _ => List.not_mem_nil] at hlist
      exact ⟨hnothing htouched, hcovers, a, a', ha', hlist, hnew, rfl, hsize⟩
    · intro e d' m' hpost
      obtain ⟨htouched, hrejected⟩ := hpost
      exact ⟨hnothing htouched, hrejected⟩

theorem contents_ensures {τ : Type} {s : τ} {view : HostView} {good : HostData → τ → Memory → Prop}
    {bad : Fault → τ → Memory → Prop} (hview : view.Valid m)
    (hgood : ∀ values : Array Scalar, values.toList = view.values m →
      good ⟨view.type, view.shape, values⟩ s m) :
    (contents view : Task τ HostData).Ensures (deviceContract A suits) good bad s m := by
  obtain ⟨a, ha, hroom⟩ := hview
  simp only [contents, Task.ensures_bind, Task.ensures_pure]
  refine ensures_hostContents ha hroom (hgood _ ?_)
  rw [toList_part, HostView.values, ha]
  rfl

/-- What a read into a new array returns. -/
theorem values_of_filled {type : ElementType} {count : Nat} {values : List Scalar} {view : HostView}
    {m' : Memory} (h : ReadTarget.fresh.Filled type count values m view m')
    (hlength : values.length = count) :
    view.Valid m' ∧ view.values m' = values ∧ view.type = .element type ∧ view.shape = [count] := by
  obtain ⟨a, a', ha', hlist, -, hview, hsize⟩ := h
  have hoffset : view.offset = 0 := congrArg HostView.offset hview
  have hshape : view.shape = [count] := congrArg HostView.shape hview
  have hcount : view.size = count := by simp [HostView.size, hshape, volume]
  rw [hoffset, overlay_zero_of_length (by simp [hlength, hsize])] at hlist
  have hsize' : a'.size = count := by rw [← Array.length_toList, hlist, hlength]
  refine ⟨⟨a', ha', by omega⟩, ?_, congrArg HostView.type hview, hshape⟩
  simp [HostView.values, ha', hlist, hoffset, hcount, ← hlength]

theorem readRange_ensures {offset count : Int} {d : Descriptor} (hv : d.Valid m) :
    (readRange offset count).Ensures (deviceContract A suits)
      (fun data d' m' => Touched [] [] d m d' m' ∧ Covers d.size offset count ∧
        data.type = .element d.type ∧ data.shape = [count.toNat] ∧
        data.values.toList = part offset count (d.contents m))
      (Broken [] [] d m) d m := by
  rw [readRange, Task.ensures_bind]
  have hfresh : ReadTarget.fresh.Valid m := trivial
  refine (read_ensures hv hfresh).imp_ok ?_
  intro view d' m' hpost
  obtain ⟨htouched, hcovers, hfilled⟩ := hpost
  obtain ⟨hview, hvalues, htype, hshape⟩ :=
    values_of_filled hfilled (length_part (hv.length_contents.symm ▸ hcovers))
  refine contents_ensures hview fun values hlist => ⟨htouched, hcovers, htype, hshape, ?_⟩
  rw [hlist, hvalues]

theorem readAll_ensures {d : Descriptor} (hv : d.Valid m) :
    readAll.Ensures (deviceContract A suits)
      (fun data d' m' => Touched [] [] d m d' m' ∧ data.type = .element d.type ∧
        data.values.toList = d.contents m)
      (Broken [] [] d m) d m := by
  simp only [readAll, Task.ensures_bind, Task.ensures_get]
  refine (readRange_ensures hv).imp_ok ?_
  intro data d' m' hpost
  obtain ⟨htouched, -, htype, -, hvalues⟩ := hpost
  refine ⟨htouched, htype, ?_⟩
  rw [hvalues, part, ← hv.length_contents]
  simp

theorem drain_ensures {τ : Type} {s : τ} {devices : List DeviceId}
    {good : Unit → τ → Memory → Prop} {bad : Fault → τ → Memory → Prop} (hgood : good () s m)
    (hbad : ∀ e, bad (.device e) s m) :
    (drain devices : Task τ Unit).Ensures (deviceContract A suits) good bad s m := by
  induction devices with
  | nil => exact hgood
  | cons d rest ih =>
    rw [drain, Task.ensures_bind]
    exact ensures_synchronize ih hbad

end Vector

end DistributedVector
