import DistributedVector.Proofs.Products
import DistributedVector.Store.Cursor

/-!
# Slices and copies

A slice is set by a write of its range, or by an assignment if it is the whole vector. Copies
between the host and a vector are transfers of a range; the rows of a host array that a range needs
are a view of the same array.

## Main definitions

* `Content.Free` — contents without products
* `Plain.Takes`, `Plain.Reaches` — the host arrays of contents and positions are there

## Main results

* `Plain.Shows.slice` — a slice of a host array lies in it
* `Store.setSlice_ensures`, `Store.copy_ensures`, `Store.copyRange_ensures`
-/

namespace DistributedVector

/-- There are no products in a content. -/
def Content.Free : Content → Prop
  | .operand x => x.Free
  | .data _ => True

/-- The host array of a content is there. -/
def Plain.Takes (p : Plain) : Content → Prop
  | .operand _ => True
  | .data source => p.Holds source

/-- A position in a vector, or one in a collection of the host that is there. -/
def Plain.Reaches (p : Plain) : Cursor → Prop
  | .vector _ => True
  | .host h => p.Holds h.collection ∧ ∀ v, h.collection ≠ .vector v

theorem Slice.clamp_bounds (n : Nat) (i : Int) : 0 ≤ clamp n 0 n i ∧ clamp n 0 n i ≤ n := by
  unfold clamp
  split <;> omega

theorem volume_cons (n : Nat) (shape : List Nat) : volume (n :: shape) = n * volume shape := by
  have hfold : ∀ (a : Nat) (ns : List Nat), ns.foldl (· * ·) a = a * ns.foldl (· * ·) 1 := by
    intro a ns
    induction ns generalizing a with
    | nil => simp
    | cons k ns ih => rw [List.foldl_cons, List.foldl_cons, ih, Nat.one_mul, ih k, Nat.mul_assoc]
  rw [volume, List.foldl_cons, hfold, Nat.one_mul, volume]

/-- A slice of a host array is a view of the array. -/
theorem Plain.Shows.slice {p : Plain} {h w : HostView} {start stop : Int} (hh : p.Shows h)
    (hw : h.slice start stop = .ok w) : p.Shows w := by
  obtain ⟨a, ha, hroom⟩ := hh
  unfold HostView.slice at hw
  split at hw
  · cases hw
  next n rest hshape =>
    cases hw
    refine ⟨a, ha, ?_⟩
    obtain ⟨hfirst, hfirst'⟩ := Slice.clamp_bounds n start
    obtain ⟨-, hlast⟩ := Slice.clamp_bounds n stop
    simp only [HostView.size, hshape, volume_cons] at hroom ⊢
    have hrows : ((Slice.clamp n 0 n start).toNat +
        (Slice.clamp n 0 n stop - Slice.clamp n 0 n start).toNat) * volume rest ≤ n * volume rest :=
      Nat.mul_le_mul_right _ (by omega)
    rw [Nat.add_mul] at hrows
    omega

section

variable {E : Evaluation} {p : Plain} {v : VectorId} {t : ElementType} {xs : List Scalar}
  {s : Slice} {b : SliceBounds}

/-- An expression is assigned to the whole vector only. -/
theorem Plain.setSlice_of_expression (hv : p.vectors[v]? = some (t, xs))
    (hs : range xs.length s = some b) {e : Operand VectorId}
    (he : Store.Content.isExpression (.operand e) = true) :
    p.setSlice E v s (.operand e) =
      if b.start = 0 ∧ b.stop = xs.length then p.assign E v e else none := by
  simp only [setSlice, hv, hs, he, Option.bind_eq_bind, Option.bind_some, guard]
  split <;> rfl

/-- What is no expression is written to the range. -/
theorem Plain.setSlice_of_content (hv : p.vectors[v]? = some (t, xs))
    (hs : range xs.length s = some b) {x : Content} (hx : Store.Content.isExpression x = false) :
    p.setSlice E v s x = if max (b.stop - b.start) 0 = 0 then some p
      else p.writeContent v b.start (max (b.stop - b.start) 0) x := by
  cases x with
  | data source =>
    simp only [setSlice, hv, hs, Option.bind_eq_bind, Option.bind_some]
    rfl
  | operand e =>
    simp only [setSlice, hv, hs, hx, Option.bind_eq_bind, Option.bind_some]
    rfl

end

namespace Store

open DistributedVector.Vector

variable {V : Type} {A : Arithmetic V} {F : Fleet} {m : Memory} {S : Store} {p : Plain}
  {v : VectorId}

/-- A content that is no expression is written to a range. -/
theorem writeContent_ensures (hS : S.Valid F m) (hp : Represents S m p) {offset count : Int}
    (hcount : count ≠ 0) {x : Content} (hx : p.Takes x) :
    (writeContent v offset count x).Ensures (deviceContract A F.suits)
      (fun _ S' m' => Becomes F (p.writeContent v offset count x) S' m')
      (fun _ S' m' => S'.Valid F m') S m := by
  have hwrite : ∀ {source}, p.Holds source →
      (write v offset count source true).Ensures (deviceContract A F.suits)
        (fun _ S' m' => Becomes F ((p.collect source).bind (p.write v offset count)) S' m')
        (fun _ S' m' => S'.Valid F m') S m := fun hsource => by
    refine (write_ensures hS hp hsource).imp_ok ?_
    intro _ S' m' h
    rwa [if_neg hcount] at h
  unfold writeContent
  split
  next source => exact hwrite hx
  next => exact hwrite trivial
  -- one value is converted first, to the element type of the vector
  next e he =>
    simp only [Task.ensures_bind, vector_ensures, ensures_orFault]
    refine ⟨fun d hv => ⟨fun y hy => ?_, fun _ _ => hS⟩, fun _ => hS⟩
    refine (onVector_write_ensures hS hp).imp ?_ fun _ _ _ h => h.1.valid hS
    intro _ S' m' hpost
    obtain ⟨-, hbecomes⟩ := hpost
    have hcontent : p.writeContent v offset count (.operand e) =
        p.write v offset count (.row d.type #[y]) := by
      unfold Plain.writeContent
      split
      next h => cases h
      next h =>
        cases h
        exact (he rfl).elim
      next h =>
        cases h
        simp [hp.getElem?_eq_some hv, hy, Except.toOption]
    rwa [hcontent]

/-- A slice is set as that of a plain array. -/
theorem setSlice_ensures (hS : S.Valid F m) (hp : Represents S m p) {s : Slice} {x : Content}
    (hx : p.Takes x) :
    (setSlice v s x).Ensures (deviceContract A F.suits)
      (fun _ S' m' => S'.Valid F m' ∧ (x.Free → Becomes F (p.setSlice A.byKernel v s x) S' m'))
      (fun _ S' m' => S'.Valid F m') S m := by
  simp only [setSlice, Task.ensures_bind, vector_ensures, ensures_orFault]
  refine ⟨fun d hv => ⟨fun b hb => ?_, fun _ _ => hS⟩, fun _ => hS⟩
  have hlookup := hp.getElem?_eq_some hv
  have hrange : Plain.range (d.contents m).length s = some b := by
    rw [(hS.vectors v d hv).1.length_contents]
    exact range_eq hb
  -- what is no expression is written to the range
  generalize hcount : max (b.stop - b.start) 0 = count
  have hrest : (do unless count = 0 do writeContent v b.start count x : Task Store Unit).Ensures
      (deviceContract A F.suits)
      (fun _ S' m' => S'.Valid F m' ∧ (x.Free →
        Becomes F (if count = 0 then some p else p.writeContent v b.start count x) S' m'))
      (fun _ S' m' => S'.Valid F m') S m := by
    rw [Task.ensures_ite]
    refine ⟨fun hzero => ?_, fun hne => ?_⟩
    · rw [if_pos hzero]
      exact ⟨hS, fun _ => (Kept.refl hS [] []).becomes_self hS hp⟩
    · rw [if_neg hne]
      exact (writeContent_ensures hS hp hne hx).imp_ok fun _ _ _ h => ⟨h.1, fun _ => h⟩
  cases x with
  | data source =>
    rw [Plain.setSlice_of_content hlookup hrange rfl, hcount]
    exact hrest
  | operand e =>
    cases hexpr : Content.isExpression (.operand e) with
    | false =>
      rw [Plain.setSlice_of_content hlookup hrange hexpr, hcount]
      exact hrest
    | true =>
      rw [Plain.setSlice_of_expression hlookup hrange hexpr,
        (hS.vectors v d hv).1.length_contents]
      simp only [Task.ensures_bind, Task.ensures_ite, Task.ensures_throw]
      refine ⟨fun hwhole => ?_, fun _ => hS⟩
      refine (assign_ensures_of_free hS hp).imp_ok ?_
      intro _ S' m' hpost
      obtain ⟨hvalid, hassign⟩ := hpost
      exact ⟨hvalid, fun hfree => by simpa [hwhole] using hassign hfree⟩

/-- Host data is copied into a whole vector. -/
theorem copyInto_ensures (hS : S.Valid F m) (hp : Represents S m p) {source : Collection}
    {w : VectorId} {blocking : Bool} (hsource : p.Holds source) :
    (do
      let data ← gather source
      let size := (← vector w).size
      unless data.values.size = size do throw (.copy (.sourceSize data.values.size size))
      onVector w (Vector.write 0 size data blocking) : Task Store Unit).Ensures
      (deviceContract A F.suits)
      (fun _ S' m' => Becomes F (do
        let (_, ys) ← p.vectors[w]?
        p.write w 0 ys.length (← p.collect source)) S' m')
      (fun _ S' m' => S'.Valid F m') S m := by
  rw [Task.ensures_bind]
  refine (gather_ensures hS hp hsource).imp ?_ fun _ _ _ h => h.valid hS
  intro data S' m' hpost
  obtain ⟨rfl, hdiff, hdata⟩ := hpost
  have hkept : Kept F [] [] S' m S' m' := .of_differs hS hdiff
  simp only [Task.ensures_bind, vector_ensures, Task.ensures_ite, Task.ensures_throw]
  refine ⟨fun d hw => ⟨fun _ => ?_, fun _ => hkept.valid hS⟩, fun _ => hkept.valid hS⟩
  refine (onVector_write_ensures (hkept.valid hS) (hp.of_kept hS hkept)).imp ?_
    fun _ _ _ h => h.1.valid (hkept.valid hS)
  intro _ S'' m'' hpost
  obtain ⟨-, hbecomes⟩ := hpost
  simpa [hp.getElem?_eq_some hw, hdata, (hS.vectors w d hw).1.length_contents] using hbecomes

/-- A whole collection is copied into another one. -/
theorem copy_ensures (hS : S.Valid F m) (hp : Represents S m p) {source target : Collection}
    {blocking : Bool} (hsource : p.Holds source) (htarget : p.Holds target) :
    (copy source target blocking).Ensures (deviceContract A F.suits)
      (fun _ S' m' => Becomes F (p.copy A.byKernel source target) S' m')
      (fun _ S' m' => S'.Valid F m') S m := by
  have hthrow : ∀ e : Fault, (throw e : Task Store Unit).Ensures (deviceContract A F.suits)
      (fun _ S' m' => Becomes F (p.copy A.byKernel source target) S' m')
      (fun _ S' m' => S'.Valid F m') S m :=
    fun _ => hS
  -- vectors are assigned, an array takes what is read from a vector, and no list takes anything
  cases source with
  | vector v =>
    cases target with
    | vector w =>
      exact (assign_ensures_of_free hS hp).imp_ok fun _ _ _ h => h.2 (Operand.free_vector v)
    | array view =>
      simp only [copy, Task.ensures_bind, vector_ensures, Task.ensures_ite, Task.ensures_throw,
        Task.ensures_pure]
      refine ⟨fun d hv => ⟨fun _ => ?_, fun _ => hS⟩, fun _ => hS⟩
      have hgoal : p.Receives (.array view) := htarget
      refine (onVector_read_ensures hS hp hgoal).imp_ok ?_
      intro view' S' m' hpost
      obtain ⟨hvalid, -, q, hread, hrep⟩ := hpost
      refine ⟨hvalid, q, ?_, hrep⟩
      simp [Plain.copy, hp.getElem?_eq_some hv, (hS.vectors v d hv).1.length_contents, hread]
    | list values =>
      simp only [copy, Task.ensures_bind, vector_ensures]
      exact ⟨fun _ _ => hS, fun _ => hS⟩
  | array view =>
    cases target with
    | vector w => exact copyInto_ensures hS hp hsource
    | _ => exact hthrow _
  | list values =>
    cases target with
    | vector w => exact copyInto_ensures hS hp hsource
    | _ => exact hthrow _

/-- A source whose positions are those of an array of the host is sliced as the array. -/
theorem slice_ensures {c : Collection} {start stop : Int}
    {good : Collection → Store → Memory → Prop} {bad : Fault → Store → Memory → Prop}
    (hc : p.Holds c) (hhost : ∀ v, c ≠ .vector v)
    (hgood : ∀ rows, Plain.slice start stop c = some rows → p.Holds rows → p.Receives rows.target →
      good rows S m) (hbad : ∀ e, bad e S m) :
    (c.slice start stop).Ensures (deviceContract A F.suits) good bad S m := by
  cases c with
  | array view =>
    simp only [Collection.slice, Task.ensures_bind, ensures_orFault, Task.ensures_pure]
    refine ⟨fun rows hrows => ?_, fun _ _ => hbad _⟩
    have hshows := Plain.Shows.slice hc hrows
    exact hgood (.array rows) (by simp [Plain.slice, hrows, Except.toOption]) hshows hshows
  | list values =>
    rw [Collection.slice, Task.ensures_pure]
    exact hgood _ rfl trivial trivial
  | vector v => exact (hhost v rfl).elim

theorem length_ensures {c : Collection} {good : Nat → Store → Memory → Prop}
    {bad : Fault → Store → Memory → Prop} (hgood : ∀ n, good n S m) (hbad : ∀ e, bad e S m) :
    c.length.Ensures (deviceContract A F.suits) good bad S m := by
  cases c with
  | array view =>
    rw [Collection.length, ensures_orFault]
    exact ⟨fun n _ => hgood n, fun e _ => hbad _⟩
  | list values => exact hgood _
  | vector v =>
    simp only [Collection.length, Task.ensures_bind, vector_ensures, Task.ensures_pure]
    exact ⟨fun _ _ => hgood _, fun _ => hbad _⟩

theorem shift_ensures {c : Cursor} {offset : Int} {good : Cursor → Store → Memory → Prop}
    {bad : Fault → Store → Memory → Prop}
    (hgood : ∀ c' : Cursor, c'.answer = (match c with
      | .vector c => .position (.inl c.vector) (c.position + offset)
      | .host c => .position (.inr c.id) (c.position + offset)) → good c' S m)
    (hbad : ∀ e, bad e S m) :
    (shift c offset).Ensures (deviceContract A F.suits) good bad S m := by
  cases c with
  | vector c =>
    simp only [shift, cursorAt, Task.ensures_bind, vector_ensures, Task.ensures_pure]
    exact ⟨fun _ _ => hgood _ rfl, fun _ => hbad _⟩
  | host c => exact hgood _ rfl

/-- A range is copied between a vector and a collection of the host. -/
theorem copyRange_ensures (hS : S.Valid F m) (hp : Represents S m p) {first last result : Cursor}
    {blocking : Bool} (hfirst : p.Reaches first) (hresult : p.Reaches result) :
    (copyRange first last result blocking).Ensures (deviceContract A F.suits)
      (fun c S' m' => ∃ q, p.copyRange first last result = some (c.answer, q) ∧ S'.Valid F m' ∧
        Represents S' m' q)
      (fun _ S' m' => S'.Valid F m') S m := by
  simp only [copyRange, Task.ensures_ite, Task.ensures_bind, Task.ensures_throw, ensures_orFault]
  refine ⟨fun _ => hS, fun hsame => ⟨fun _ => hS, fun hacross => ⟨fun count hcount =>
    ⟨fun _ => hS, fun _ => ?_⟩, fun _ _ => hS⟩⟩⟩
  -- the range is on one side and its destination on the other one
  cases first with
  | vector c =>
    cases last with
    | host _ => cases hcount
    | vector c' =>
      cases result with
      | vector _ => exact absurd rfl hacross
      | host h =>
        obtain rfl : c'.position - c.position = count := Except.ok.inj hcount
        simp only [Task.ensures_bind]
        refine length_ensures (fun n => ?_) fun _ => hS
        simp only [Task.ensures_ite, Task.ensures_bind, Task.ensures_throw]
        refine ⟨fun _ => hS, fun _ => ?_⟩
        refine slice_ensures hresult.1 hresult.2 (fun rows hrows _ hgoal => ?_) fun _ => hS
        refine (onVector_read_ensures hS hp hgoal).imp_ok ?_
        intro view S' m' hpost
        obtain ⟨hvalid, -, q, hread, hrep⟩ := hpost
        refine shift_ensures (fun cursor hcursor => ⟨q, ?_, hvalid, hrep⟩) fun _ => hvalid
        simp [Plain.copyRange, Cursor.position, hrows, hread, hcursor]
  | host h =>
    cases last with
    | vector _ => cases hcount
    | host h' =>
      cases result with
      | host _ => exact absurd rfl hacross
      | vector c =>
        obtain rfl : h'.position - h.position = count := Except.ok.inj hcount
        simp only [Task.ensures_bind]
        refine slice_ensures hfirst.1 hfirst.2 (fun rows hrows hholds _ => ?_) fun _ => hS
        refine (write_ensures hS hp hholds).imp_ok ?_
        intro _ S' m' hpost
        obtain ⟨hvalid, q, hwrite, hrep⟩ := hpost
        refine shift_ensures (fun cursor hcursor => ⟨q, ?_, hvalid, hrep⟩) fun _ => hvalid
        have hplain : p.copyRange (.host h) (.host h') (.vector c) = (do
            let rows ← Plain.slice h.position (h.position + (h'.position - h.position)) h.collection
            let answer := Answer.position (.inl c.vector) (c.position + (h'.position - h.position))
            if h'.position - h.position = 0 then return (answer, p)
            else return (answer, ← p.write c.vector c.position (h'.position - h.position)
              (← p.collect rows))) := rfl
        rw [hplain, hrows, hcursor, Option.bind_eq_bind, Option.bind_some]
        by_cases hcount : h'.position - h.position = 0
        · rw [if_pos hcount] at hwrite ⊢
          rw [Option.some_inj.mp hwrite]
          rfl
        · rw [if_neg hcount] at hwrite ⊢
          obtain ⟨data, hdata, hwrite⟩ := Option.bind_eq_some_iff.mp hwrite
          simp [hdata, hwrite]

/-- A vector combined with an operand without products. -/
theorem update_ensures (hS : S.Valid F m) (hp : Represents S m p) {op : BinaryOp}
    {source : Operand VectorId} :
    (update v op source).Ensures (deviceContract A F.suits)
      (fun _ S' m' => S'.Valid F m' ∧ (source.Free → Becomes F (do
        p.assign A.byKernel v (← (Operand.binary op (.vector v) source).toOption)) S' m'))
      (fun _ S' m' => S'.Valid F m') S m := by
  rw [update, Task.ensures_bind, ensures_orFault]
  refine ⟨fun x hx => ?_, fun _ _ => hS⟩
  refine (assign_ensures_of_free hS hp).imp_ok ?_
  intro _ S' m' hpost
  obtain ⟨hvalid, hassign⟩ := hpost
  exact ⟨hvalid, fun hfree => by simpa [hx, Except.toOption] using hassign (hfree.binary hx)⟩

end Store

end DistributedVector
