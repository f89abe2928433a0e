import DistributedVector.Store.Cursor
import DistributedVector.Store.Resize

/-!
# What operations are made of

Operations on a store are put together from few tasks inside vectors, the compilation of kernels,
and looks at host arrays. Whatever holds of these and is kept by sequences holds of all operations
that make no vectors; this is said here once for all.

What may be looked at is a set of views of host arrays. Reads that are not waited for come last in
an operation, since nothing may be looked at behind them.

## Main definitions

* `Vector.Inner` — the tasks inside vectors
* `Store.Logic` — a judgement about tasks on stores

## Main results

* `Store.Logic.assign`, `Store.Logic.setSlice`, `Store.Logic.copyRange` — the judgement holds of
  operations
-/

namespace DistributedVector

/-- The tasks inside vectors that operations are made of. Reads into an array that stays are not
among them. -/
inductive Vector.Inner : {α : Type} → Task Descriptor α → Prop
  | checkRange (offset count : Int) : Inner (checkRange offset count)
  | write (offset count : Int) (data : HostData) (blocking : Bool) :
    Inner (write offset count data blocking)
  | readRange (offset count : Int) : Inner (readRange offset count)
  | readAll : Inner readAll
  | readEach (d : Descriptor) (positions : List Nat) : Inner (Store.readEach d positions)
  | readElement (index : Nat) (position : Int) : Inner (readElement index position)
  | writeElements (index : Nat) (position : Int) (data : HostData) :
    Inner (writeElements index position data)
  | dispatch (session : Session) (kernels : List (Key × CompiledKernel)) (f : Formula Descriptor) :
    Inner (dispatch session kernels f)

/-- The array that host data comes from, if it does, is among those that may be looked at. -/
def Collection.Known (views : HostView → Prop) : Collection → Prop
  | .array view => views view
  | _ => True

/-- The array that a content comes from, if it does, is among those that may be looked at. -/
def Content.Known (views : HostView → Prop) : Content → Prop
  | .data source => source.Known views
  | .operand _ => True

/-- The next rows of the array that a position is in, if it is one, are among those that may be
used. -/
def Cursor.Known (views : HostView → Prop) (count : Int) : Cursor → Prop
  | .host ⟨_, .array view, position⟩ =>
    ∀ w, view.slice position (position + count) = .ok w → views w
  | _ => True

theorem Collection.known_true (c : Collection) : c.Known fun _ => True := by
  cases c <;> trivial

theorem Content.known_true (x : Content) : x.Known fun _ => True := by
  cases x with
  | operand x => trivial
  | data source => exact source.known_true

theorem Cursor.known_true (c : Cursor) (count : Int) : c.Known (fun _ => True) count := by
  unfold Known
  split
  · exact fun _ _ => trivial
  · trivial

namespace Store

/-- A judgement about tasks on a store that may look at certain views of host arrays. It comes in
two forms: one for tasks that something may follow, and one for tasks that end with a read which
need not have been waited for. -/
structure Logic where
  holds : (HostView → Prop) → {α : Type} → Task Store α → Prop
  ends : (HostView → Prop) → {α : Type} → Task Store α → Prop
  done {views : HostView → Prop} {α : Type} (a : α) : holds views (pure a)
  fail {views : HostView → Prop} {α : Type} (e : Fault) : holds views (throw e : Task Store α)
  state {views : HostView → Prop} : holds views (MonadState.get : Task Store Store)
  check {views : HostView → Prop} {α ε : Type} (f : ε → Fault) (r : Except ε α) :
    holds views (orFault f r)
  seq {views : HostView → Prop} {α β : Type} {t : Task Store α} {g : α → Task Store β} :
    holds views t → (∀ a, holds views (g a)) → holds views (t >>= g)
  contents {views : HostView → Prop} {view : HostView} : views view →
    holds views (Vector.contents view)
  multiply {views : HostView → Prop} (operator : String) (alpha : Float) (append : Bool) :
    holds views (Task.perform (Program.ask (.multiply operator alpha append)))
  onVector {views : HostView → Prop} {α : Type} {t : Task Descriptor α} (v : VectorId) :
    Vector.Inner t → holds views (onVector v t)
  /-- a copy between shards, or a computation -/
  copyFrom {views : HostView → Prop} (v w : VectorId) : (∀ e, holds views (evaluate v e)) →
    holds views (copyFrom v w)
  last {views : HostView → Prop} {α : Type} {t : Task Store α} : holds views t → ends views t
  /-- something before the end -/
  seqEnds {views : HostView → Prop} {α β : Type} {t : Task Store α} {g : α → Task Store β} :
    holds views t → (∀ a, ends views (g a)) → ends views (t >>= g)
  /-- something behind the end that looks at no array -/
  endsSeq {views : HostView → Prop} {α β : Type} {t : Task Store α} {g : α → Task Store β} :
    ends views t → (∀ a, holds (fun _ => False) (g a)) → ends views (t >>= g)
  /-- a read into an array that stays -/
  read {views : HostView → Prop} (v : VectorId) (offset count : Int) {goal : Vector.ReadTarget}
    (blocking : Bool) : (∀ view, goal = .array view → views view) →
    ends views (Store.onVector v (Vector.read offset count goal blocking))
  /-- a read into a new array, which may be used from then on -/
  slice {views : HostView → Prop} {β : Type} (v : VectorId) (offset count : Int)
    {g : HostView → Task Store β} : (∀ view, ends (fun w => w = view) (g view)) →
    ends views (Store.onVector v (Vector.read offset count .fresh true) >>= g)

namespace Logic

variable {L : Logic} {views : HostView → Prop} {α β : Type}

theorem ite {p : Prop} [Decidable p] {t u : Task Store α} (ht : L.holds views t)
    (hu : L.holds views u) : L.holds views (if p then t else u) := by
  split
  · exact ht
  · exact hu

theorem iteEnds {p : Prop} [Decidable p] {t u : Task Store α} (ht : L.ends views t)
    (hu : L.ends views u) : L.ends views (if p then t else u) := by
  split
  · exact ht
  · exact hu

theorem vector (v : VectorId) : L.holds views (vector v) := by
  refine L.seq L.state fun S => ?_
  split
  · exact L.done _
  · exact L.fail _

theorem session (k : SessionId) : L.holds views (session k) := by
  refine L.seq L.state fun S => ?_
  split
  · exact L.done _
  · exact L.fail _

/-! ## Host data -/

theorem elements (v : VectorId) : L.holds views (elements v) :=
  L.seq (vector v) fun _ => L.onVector v (.readEach _ _)

theorem gather {source : Collection} (h : source.Known views) : L.holds views (gather source) := by
  cases source with
  | array view => exact L.contents h
  | list values => exact L.done _
  | vector v => exact L.seq (elements v) fun _ => L.seq (vector v) fun _ => L.done _

theorem resolveExtent {b : Blueprint}
    (hextent : ∀ source, b.extent = .data source → source.Known views)
    (hhost : ∀ source, b.host = some source → source.Known views) :
    L.holds views (resolveExtent b) := by
  unfold Store.resolveExtent
  split
  next source hsource =>
    exact L.seq (gather (hextent source hsource)) fun _ => ite (L.done _) (L.fail _)
  · refine ite (L.fail _) ?_
    split
    · exact L.done _
    next source hsource => exact L.seq (gather (hhost source hsource)) fun _ => L.done _

theorem write (v : VectorId) (offset count : Int) {source : Collection} (blocking : Bool)
    (h : source.Known views) : L.holds views (write v offset count source blocking) :=
  ite (L.done _) <| L.seq (L.onVector v (.checkRange _ _)) fun _ => L.seq (gather h) fun _ =>
    L.onVector v (.write _ _ _ _)

/-! ## Elements and slices -/

theorem locate (v : VectorId) (index : Index) : L.holds views (locate v index) :=
  L.seq (vector v) fun _ => L.seq (L.check _ _) fun _ => L.seq (L.check _ _) fun _ => L.done _

theorem readAt (v : VectorId) (index : Index) : L.holds views (Store.get v index) :=
  L.seq (locate v index) fun _ => L.onVector _ (.readElement _ _)

theorem elementsFor (type : ElementType) {x : Content} (h : x.Known views) :
    L.holds views (elementsFor type x) := by
  unfold Store.elementsFor
  split
  · exact L.done _
  · exact L.seq (L.check _ _) fun _ => L.done _
  · exact L.seq (elements _) fun _ => L.seq (vector _) fun _ =>
      L.seq (L.check _ _) fun _ => L.done _
  · exact L.seq (elements _) fun _ => L.seq (vector _) fun _ =>
      L.seq (L.check _ _) fun _ => L.done _
  · exact L.fail _
  · exact L.seq (L.check _ _) fun _ => L.done _
  · exact L.seq (gather h) fun _ => L.seq (L.check _ _) fun _ => L.done _

theorem writeElement (e : ElementRef) {x : Content} (h : x.Known views) :
    L.holds views (writeElement e x) :=
  L.seq (vector _) fun _ => ite (L.seq (elementsFor _ h) fun _ =>
    L.onVector _ (.writeElements _ _ _)) (L.fail _)

theorem set (v : VectorId) (index : Index) {x : Content} (h : x.Known views) :
    L.holds views (set v index x) :=
  L.seq (locate v index) fun _ => writeElement _ h

theorem getSlice (v : VectorId) (s : Slice) : L.holds views (getSlice v s) :=
  L.seq (vector v) fun _ => L.seq (L.check _ _) fun _ => L.onVector v (.readRange _ _)

theorem writeContent (v : VectorId) (offset count : Int) {x : Content} (h : x.Known views) :
    L.holds views (writeContent v offset count x) := by
  unfold Store.writeContent
  split
  · exact write v _ _ _ h
  · exact write v _ _ _ trivial
  · exact L.seq (vector v) fun _ => L.seq (L.check _ _) fun _ => L.onVector v (.write _ _ _ _)

/-! ## Assignments -/

theorem applyProducts (v : VectorId) (append : Bool) (products : List (Sign × Product VectorId)) :
    L.holds views (applyProducts v append products) := by
  have happly : ∀ p sign append, L.holds views (applyProduct v p sign append) := by
    intro p sign append
    refine L.seq (vector v) fun _ => L.seq (vector _) fun _ => ite (L.fail _) <|
      L.seq (L.multiply _ _ _) fun _ => L.seq (L.onVector _ .readAll) fun _ => ?_
    split
    · exact L.fail _
    · exact ite (L.seq (L.onVector v .readAll) fun _ => L.onVector v (.write _ _ _ _))
        (L.onVector v (.write _ _ _ _))
  induction products generalizing append with
  | nil => exact L.done _
  | cons p rest ih => exact L.seq (happly _ _ _) fun _ => ih true

section Assignments

variable (hcompile : ∀ k devices f result,
  L.holds views (onSession k (Session.kernelsFor devices f result)))
include hcompile

theorem evaluate (v : VectorId) (e : Expr VectorId) : L.holds views (evaluate v e) := by
  have hvectors : ∀ vs, L.holds views (vectorsOf vs) := by
    intro vs
    induction vs with
    | nil => exact L.done _
    | cons v rest ih => exact L.seq (vector v) fun _ => L.seq ih fun _ => L.done _
  exact L.seq (vector v) fun _ => ite (L.fail _) <| L.seq (L.check _ _) fun _ =>
    L.seq (hvectors _) fun _ => L.seq (L.check _ _) fun _ => ite (L.done _) <|
      L.seq L.state fun _ => L.seq (hcompile _ _ _ _) fun _ => L.seq (session _) fun _ =>
        L.onVector v (.dispatch _ _ _)

theorem assign (v : VectorId) (source : Operand VectorId) : L.holds views (assign v source) := by
  have hcopy : ∀ w, L.holds views (Store.copyFrom v w) := fun w =>
    L.copyFrom v w (evaluate hcompile v)
  unfold Store.assign
  split
  · exact hcopy _
  · refine L.seq (L.check _ _) fun e => ?_
    dsimp only
    split
    · exact applyProducts v _ _
    · exact L.seq (hcopy _) fun _ => applyProducts v _ _
    · exact L.seq (evaluate hcompile v _) fun _ => applyProducts v _ _

theorem update (v : VectorId) (op : BinaryOp) (source : Operand VectorId) :
    L.holds views (update v op source) :=
  L.seq (L.check _ _) fun _ => assign hcompile v _

theorem setSlice (v : VectorId) (s : Slice) {x : Content} (h : x.Known views) :
    L.holds views (setSlice v s x) := by
  refine L.seq (vector v) fun d => L.seq (L.check _ _) fun b => ?_
  split
  · exact ite (assign hcompile v _) (L.fail _)
  · exact ite (L.done _) (writeContent v _ _ h)

/-! ## Copies -/

theorem copy {source target : Collection} (blocking : Bool) (hsource : source.Known views)
    (htarget : target.Known views) : L.ends views (copy source target blocking) := by
  unfold Store.copy
  split
  · exact L.last (assign hcompile _ _)
  · exact L.last <| L.seq (gather hsource) fun _ => L.seq (vector _) fun _ =>
      ite (L.onVector _ (.write _ _ _ _)) (L.fail _)
  · refine L.seqEnds (vector _) fun _ => ?_
    split
    · refine iteEnds (L.endsSeq (L.read _ _ _ _ ?_) fun _ => L.done _) (L.last (L.fail _))
      rintro _ ⟨⟩
      exact htarget
    · exact L.last (L.fail _)
  · exact L.last (L.fail _)

end Assignments

theorem length (source : Collection) : L.holds views source.length := by
  cases source with
  | array view => exact L.check _ _
  | list values => exact L.done _
  | vector v => exact L.seq (vector v) fun _ => L.done _

/-- What follows a slice may use the array that the slice is in. -/
theorem slice_seq {c : Collection} {start stop : Int} {g : Collection → Task Store β}
    (h : ∀ view w, c = .array view → view.slice start stop = .ok w → views w)
    (hg : ∀ c' views', Collection.Known views' c' → L.ends views' (g c')) :
    L.ends views (c.slice start stop >>= g) := by
  cases c with
  | array view =>
    cases hw : view.slice start stop with
    | error e =>
      have heq : (Collection.array view).slice start stop >>= g = throw (.host e) := by
        rw [Collection.slice, hw]
        rfl
      exact heq ▸ L.last (L.fail _)
    | ok w =>
      have heq : (Collection.array view).slice start stop >>= g = g (.array w) := by
        rw [Collection.slice, hw]
        rfl
      exact heq ▸ hg (.array w) views (h view w rfl hw)
  | list values => exact hg (.list (sliceList values start stop)) views trivial
  | vector v =>
    simp only [Collection.slice, bind_assoc, pure_bind]
    exact L.seqEnds (vector v) fun _ => L.seqEnds (L.check _ _) fun _ =>
      L.slice v _ _ fun view => hg (.array view) _ rfl

theorem shift (c : Cursor) (offset : Int) : L.holds views (shift c offset) := by
  cases c with
  | vector c => exact L.seq (L.seq (vector _) fun _ => L.done _) fun _ => L.done _
  | host c => exact L.done _

theorem copyRange {first last result : Cursor} (blocking : Bool)
    (hfirst : ∀ count, last.diff first = .ok count → first.Known views count)
    (hresult : ∀ count, last.diff first = .ok count → result.Known views count) :
    L.ends views (copyRange first last result blocking) := by
  have hknown : ∀ {h : HostCursor} {count : Int}, (Cursor.host h).Known views count → ∀ view w,
      h.collection = .array view → view.slice h.position (h.position + count) =
        .ok w → views w := by
    rintro ⟨_, _, _⟩ count hh view w rfl hw
    exact hh w hw
  refine iteEnds (L.last (L.fail _)) <| iteEnds (L.last (L.fail _)) ?_
  cases hdiff : last.diff first with
  | error e => exact L.last (L.fail _)
  | ok count =>
    refine iteEnds (L.last (L.fail _)) ?_
    dsimp only
    split
    · refine L.seqEnds (length _) fun _ => iteEnds (L.last (L.fail _)) <|
        slice_seq (hknown (hresult count hdiff)) fun goal views' hgoal => ?_
      refine L.endsSeq (L.read _ _ _ _ fun view hview => ?_) fun _ => shift _ _
      cases goal with
      | array w =>
        cases hview
        exact hgoal
      | _ => cases hview
    · exact slice_seq (hknown (hfirst count hdiff)) fun rows views' hrows =>
        L.last (L.seq (write _ _ _ _ hrows) fun _ => shift _ _)
    · exact L.last (L.fail _)

end Logic

end Store

end DistributedVector
