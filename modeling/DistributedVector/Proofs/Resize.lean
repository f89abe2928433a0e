import DistributedVector.Proofs.Reallocation

/-!
# Resizing that keeps elements

A vector of another size keeps its first elements. Those whose device stays the same are copied
there, piece by piece, and the runs between the pieces go through the host. Pieces and runs together
are all positions up to the smaller one of the two sizes, wherever the boundaries lie before and
after, so that what was there stays and zeros follow.

## Main definitions

* `InRuns`, `carried` — positions in runs, and the elements that are carried over to them

## Main results

* `inRuns_gaps_append` — pieces and gaps cover what is kept
* `Vector.copyPieces_ensures`, `Store.moveRuns_ensures` — both ways of carrying elements over
* `Store.resizePreserving_ensures` — the first elements stay
-/

namespace DistributedVector

section Runs

variable {α : Type} {runs runs' : List (Nat × Nat)} {keep index o n i : Nat}
  {pairs : List (Shard × Shard)} {xs ys : List α}

/-- A position lies in a run. -/
def InRuns (runs : List (Nat × Nat)) (i : Nat) : Prop := ∃ r ∈ runs, r.1 ≤ i ∧ i < r.2

instance : DecidablePred (InRuns runs) := fun i =>
  inferInstanceAs (Decidable (∃ r ∈ runs, r.1 ≤ i ∧ i < r.2))

@[simp] theorem not_inRuns_nil : ¬ InRuns [] i := by simp [InRuns]

@[simp] theorem inRuns_cons {start stop : Nat} :
    InRuns ((start, stop) :: runs) i ↔ start ≤ i ∧ i < stop ∨ InRuns runs i := by simp [InRuns]

@[simp] theorem inRuns_append : InRuns (runs ++ runs') i ↔ InRuns runs i ∨ InRuns runs' i := by
  simp [InRuns, or_and_right, exists_or]

/-- The positions of a piece. -/
def KeptPiece.run (p : KeptPiece) : Nat × Nat := (p.start, p.stop)

theorem bounds_of_inRuns (h : InRuns ((keptPieces keep index o n pairs).map KeptPiece.run) i) :
    max o n ≤ i ∧ i < keep := by
  induction pairs generalizing index o n with
  | nil => simp [keptPieces] at h
  | cons pair rest ih =>
    obtain ⟨old, new⟩ := pair
    simp only [keptPieces] at h
    generalize hends : min (o + old.length) (n + new.length) = ends at h
    split at h
    · simp only [List.map_cons, KeptPiece.run, inRuns_cons] at h
      rcases h with h | h
      · omega
      · have := ih h
        omega
    · have := ih h
      omega

/-- Pieces and the gaps between them are all that is kept. -/
theorem inRuns_gaps_append {position : Nat} (h : position ≤ max o n) :
    InRuns (gaps keep position (keptPieces keep index o n pairs) ++
      (keptPieces keep index o n pairs).map KeptPiece.run) i ↔ position ≤ i ∧ i < keep := by
  induction pairs generalizing index o n position with
  | nil =>
    simp only [keptPieces, gaps]
    split
    · simp
    · simp
      omega
  | cons pair rest ih =>
    obtain ⟨old, new⟩ := pair
    simp only [keptPieces]
    generalize hends : min (o + old.length) (n + new.length) = ends
    split
    next hlt =>
      -- a piece ends where a shard ends, before or after, or with all that is kept
      have hstop : min ends keep ≤ max (o + old.length) (n + new.length) := by omega
      have hrest : InRuns (_ ++ (keptPieces keep (index + 1) _ _ rest).map KeptPiece.run) i ↔ _ :=
        ih hstop
      rw [inRuns_append] at hrest
      simp only [gaps, List.map_cons, KeptPiece.run, inRuns_append, inRuns_cons]
      split
      · rw [inRuns_cons, or_or_or_comm, hrest]
        omega
      · rw [or_left_comm, hrest]
        omega
    next => exact ih (by omega)

theorem lt_of_mem_gaps {position : Nat} {pieces : List KeptPiece} {r : Nat × Nat}
    (h : r ∈ gaps keep position pieces) : r.1 < r.2 := by
  induction pieces generalizing position with
  | nil =>
    rw [gaps] at h
    split at h
    · cases List.mem_singleton.mp h
      assumption
    · cases h
  | cons p rest ih =>
    simp only [gaps] at h
    split at h
    · rcases List.mem_cons.mp h with rfl | h
      · assumption
      · exact ih h
    · exact ih h

/-- What is carried over to a list that starts at `n`: entries of a list that starts at `o`, at the
positions in runs. -/
def carried (runs : List (Nat × Nat)) (o n : Nat) (xs : List α) (i : Nat) : Option α :=
  if InRuns runs (n + i) then xs[n + i - o]? else none

theorem carried_append :
    carried (runs ++ runs') o n xs i = (carried runs o n xs i).or (carried runs' o n xs i) := by
  simp only [carried, inRuns_append]
  by_cases h : InRuns runs (n + i) <;> by_cases h' : InRuns runs' (n + i) <;> simp [h, h']

/-- What is carried over from behind a list. -/
theorem carried_behind (h : ∀ i, InRuns runs i → o + ys.length ≤ i) {k : Nat} :
    carried runs o n (ys ++ xs) (k + i) = carried runs (o + ys.length) (n + k) xs i := by
  simp only [carried, Nat.add_assoc]
  split
  next hin =>
    have := h _ hin
    rw [List.getElem?_append_right (by omega)]
    congr 1
    omega
  · rfl

/-- What a single run carries over, which lies in the first of two lists. -/
theorem carried_run {start stop : Nat} (hstart : max o n ≤ start) (hstop : stop ≤ o + ys.length) :
    carried [(start, stop)] o n (ys ++ xs) i =
      placed (start - n) ((ys.drop (start - o)).take (stop - start)) i := by
  simp only [carried, placed, inRuns_cons, not_inRuns_nil, or_false]
  split
  next hin =>
    rw [if_pos (by omega), List.getElem?_take_of_lt (by omega), List.getElem?_drop,
      List.getElem?_append_left (by omega)]
    congr 1
    omega
  next hout =>
    split
    · rw [List.getElem?_eq_none]
      rw [List.length_take, List.length_drop]
      omega
    · rfl

theorem carried_eq_none (h : ¬ InRuns runs (n + i)) : carried runs o n xs i = none := if_neg h

/-- Runs behind the first of two lists, before and after, carry nothing over to it, and from the
second one only. -/
theorem carried_later (ys : List α) {k : Nat}
    (hruns : ∀ i, InRuns runs i → max (o + xs.length) (n + k) ≤ i) :
    (∀ i < k, carried runs o n (xs ++ ys) i = none) ∧
      (fun i => carried runs o n (xs ++ ys) (k + i)) = carried runs (o + xs.length) (n + k) ys := by
  constructor
  · intro i hi
    apply carried_eq_none
    intro h
    have := hruns _ h
    omega
  · funext i
    apply carried_behind
    intro i h
    have := hruns i h
    omega

/-- What a run in the first of two lists carries over, and runs behind it. -/
theorem revise_carried_cons {start stop : Nat} {xs' ys' : List α}
    (hruns : ∀ i, InRuns runs i → max (o + xs.length) (n + ys.length) ≤ i)
    (hstart : max o n ≤ start) (hstop : stop ≤ min (o + xs.length) (n + ys.length)) :
    revise (carried ((start, stop) :: runs) o n (xs ++ xs')) (ys ++ ys') =
      overlay (start - n) ((xs.drop (start - o)).take (stop - start)) ys ++
        revise (carried runs (o + xs.length) (n + ys.length) xs') ys' := by
  obtain ⟨hlater, hbehind⟩ := carried_later xs' hruns
  have hrun : ∀ i, carried ((start, stop) :: runs) o n (xs ++ xs') i =
      (placed (start - n) ((xs.drop (start - o)).take (stop - start)) i).or
        (carried runs o n (xs ++ xs') i) := by
    intro i
    rw [← List.singleton_append, carried_append, carried_run hstart (by omega)]
  rw [revise_append, overlay]
  congr 1
  · apply revise_congr
    intro i hi
    rw [hrun, hlater i hi, Option.or_none]
  · apply revise_congr
    intro i _
    -- the run ends before the second list begins
    have hover : placed (start - n) ((xs.drop (start - o)).take (stop - start)) (ys.length + i) =
        none := by
      unfold placed
      split
      · rw [List.getElem?_eq_none]
        rw [List.length_take]
        omega
      · rfl
    rw [hrun, hover, Option.none_or]
    exact congrFun hbehind i

/-- The first entries of a list over copies of an entry. -/
theorem revise_carried {x : α} {size : Nat} (hruns : ∀ i, InRuns runs i ↔ i < keep)
    (hold : keep ≤ xs.length) (hnew : keep ≤ size) :
    revise (carried runs 0 0 xs) (List.replicate size x) =
      xs.take keep ++ List.replicate (size - keep) x := by
  refine List.ext_getElem? fun i => ?_
  simp only [getElem?_revise, carried, Nat.zero_add, Nat.sub_zero, hruns]
  by_cases hi : i < keep
  · have hlength : i < (xs.take keep).length := by
      rw [List.length_take]
      omega
    rw [List.getElem?_append_left hlength, List.getElem?_take_of_lt hi, if_pos hi,
      List.getElem?_replicate, if_pos (by omega), List.getElem?_eq_getElem (by omega)]
    rfl
  · have hlength : (xs.take keep).length = keep := by
      rw [List.length_take]
      omega
    rw [List.getElem?_append_right (by omega), hlength, if_neg hi, List.getElem?_replicate,
      List.getElem?_replicate]
    by_cases hsize : i < size
    · rw [if_pos hsize, if_pos (by omega)]
      rfl
    · rw [if_neg hsize, if_neg (by omega)]
      rfl

end Runs

namespace Vector

open Descriptor

variable {V : Type} {A : Arithmetic V} {suits : DeviceId → KernelSource → Int → Prop} {m : Memory}
  {type : ElementType} {access access' : Access} {keep : Nat}

/-- Copying the pieces that stay on their device carries their elements over to the new shards. -/
theorem copyPieces_ensures {pairs : List (Shard × Shard)} :
    ∀ {index o n : Nat} {d : Descriptor} {m : Memory}, ShardsValid m type access (pairs.map (·.1)) →
    ShardsValid m type access' (pairs.map (·.2)) → (∀ p ∈ pairs, p.1.device = p.2.device) →
    (∀ b ∈ buffersOf (pairs.map (·.1)), b ∉ buffersOf (pairs.map (·.2))) →
    (copyPieces (keptPieces keep index o n pairs)).Ensures (deviceContract A suits)
      (fun _ d' m' => Touched (buffersOf (pairs.map (·.2))) [] d m d' m' ∧
        contentsOf m' (pairs.map (·.2)) =
          revise (carried ((keptPieces keep index o n pairs).map KeptPiece.run) o n
            (contentsOf m (pairs.map (·.1)))) (contentsOf m (pairs.map (·.2))))
      (Failed (buffersOf (pairs.map (·.2))) [] d m) d m := by
  induction pairs with
  | nil => exact fun _ _ _ _ => ⟨.refl _ _ _ _, rfl⟩
  | cons pair rest ih =>
    obtain ⟨old, new⟩ := pair
    intro index o n d m hold hnew hdevices hapart
    have hdevices' : ∀ p ∈ rest, p.1.device = p.2.device :=
      fun p hp => hdevices p (List.mem_cons_of_mem _ hp)
    simp only [List.map_cons] at hold hnew hapart ⊢
    have hapart' : ∀ b ∈ buffersOf (rest.map (·.1)), b ∉ buffersOf (rest.map (·.2)) :=
      fun b hb hb' => hapart b (mem_buffersOf_cons hb) (mem_buffersOf_cons hb')
    have hlength : (old.contents m).length = old.length := hold.head.length_contents
    have hlength' : (new.contents m).length = new.length := hnew.head.length_contents
    have hruns : ∀ i, InRuns ((keptPieces keep (index + 1) (o + old.length) (n + new.length)
        rest).map KeptPiece.run) i →
        max (o + (old.contents m).length) (n + (new.contents m).length) ≤ i := by
      intro i h
      rw [hlength, hlength']
      exact (bounds_of_inRuns h).1
    simp only [keptPieces]
    split
    next hlt =>
      have hstop : min (min (o + old.length) (n + new.length)) keep ≤
          min (o + (old.contents m).length) (n + (new.contents m).length) := by omega
      simp only [copyPieces, List.map_cons]
      rw [contentsOf_cons, contentsOf_cons, KeptPiece.run,
        revise_carried_cons hruns (Nat.le_refl _) hstop, hlength, hlength']
      refine copyFirst_ensures hold hnew rfl (hdevices _ List.mem_cons_self).symm hapart (by omega)
        (by omega) (by omega) fun e m₁ hold' hnew' hcontents hcontents' => ?_
      rw [← hcontents, ← hcontents']
      exact ih hold' hnew' hdevices' hapart'
    next hge =>
      -- the first shard keeps what it has
      have hsub : buffersOf (rest.map (·.2)) ⊆ buffersOf (new :: rest.map (·.2)) :=
        fun b hb => mem_buffersOf_cons hb
      refine (ih hold.tail hnew.tail hdevices' hapart').imp ?_ fun e' d' m' h =>
        ⟨h.1, h.2.widen hsub⟩
      intro _ d' m' hpost
      obtain ⟨htouched, hrest⟩ := hpost
      refine ⟨htouched.widen hsub, ?_⟩
      have hmine : new.contents m' = new.contents m :=
        hnew.head.contents_of_differs htouched.memory fun b hb => hnew.head_notMem hb
      obtain ⟨hlater, hbehind⟩ := carried_later (contentsOf m (rest.map (·.1))) hruns
      rw [contentsOf_cons, contentsOf_cons, contentsOf_cons, revise_append, hbehind, hlength,
        hlength', hrest, hmine]
      congr 1
      symm
      apply revise_eq_self
      exact hlater

/-- Copying the pieces that stay into a vector on the same devices. -/
theorem copyKept_ensures {d fresh : Descriptor} (hold : d.Valid m) (hnew : fresh.Valid m)
    (htype : fresh.type = d.type) (hdevices : fresh.devices = d.devices)
    (hapart : ∀ b ∈ d.buffers, b ∉ fresh.buffers) {pieces : List KeptPiece}
    (hpieces : keptPieces keep 0 0 0 (d.shards.zip fresh.shards) = pieces) :
    (copyPieces pieces).Ensures (deviceContract A suits)
      (fun _ fresh' m' => Touched fresh.buffers [] fresh m fresh' m' ∧ fresh'.contents m' =
        revise (carried (pieces.map KeptPiece.run) 0 0 (d.contents m)) (fresh.contents m))
      (Failed fresh.buffers [] fresh m) fresh m := by
  obtain ⟨hfst, hsnd, halike⟩ := zip_shards (f := (·.device)) hdevices.symm
  have hsources : ShardsValid m d.type d.access ((d.shards.zip fresh.shards).map (·.1)) := by
    rw [hfst]
    exact hold
  have htargets : ShardsValid m d.type fresh.access ((d.shards.zip fresh.shards).map (·.2)) := by
    rw [hsnd, ← htype]
    exact hnew
  -- the old and the new shards are there side by side, as there are as many of them
  have hcopy : (copyPieces (keptPieces keep 0 0 0 (d.shards.zip fresh.shards))).Ensures
      (deviceContract A suits) _ _ fresh m := copyPieces_ensures hsources htargets halike <| by
    rw [hfst, hsnd]
    exact hapart
  rw [hfst, hsnd, hpieces] at hcopy
  refine hcopy.imp_ok ?_
  intro _ fresh' m' hpost
  obtain ⟨htouched, hcontents⟩ := hpost
  refine ⟨htouched, ?_⟩
  rw [contents_of_forget htouched.same]
  exact hcontents

theorem waitAll_ensures {τ : Type} {s : τ} {shards : List Shard} {good : Unit → τ → Memory → Prop}
    {bad : Fault → τ → Memory → Prop} (hgood : good () s m) (hbad : ∀ e, bad (.device e) s m) :
    (waitAll shards : Task τ Unit).Ensures (deviceContract A suits) good bad s m := by
  induction shards with
  | nil => exact hgood
  | cons shard rest ih =>
    simp only [waitAll]
    split
    · rw [Task.ensures_bind]
      exact ensures_wait ih hbad
    · exact ih

end Vector

namespace Store

open DistributedVector.Vector

variable {V : Type} {A : Arithmetic V} {F : Fleet} {m m₀ : Memory} {S S₀ : Store} {p : Plain}
  {v : VectorId} {d : Descriptor}

/-- Elements of a vector fit a vector of its type as they are. -/
theorem elements_of_type {data : HostData} {t : ElementType} {count : Nat}
    (htype : data.type = .element t) :
    data.elements t count = .ok (data.values.toList.take count).toArray := by
  have hcast : t.cast data.type = fun x => pure x := funext fun x => if_pos htype
  rw [HostData.elements, hcast, List.mapM_pure, List.map_id']
  rfl

/-- What has been read of a vector fits a vector of its type as it is. -/
theorem elements_of_part {data : HostData} {t : ElementType} {offset count : Int} {xs : List Scalar}
    (htype : data.type = .element t) (hvalues : data.values.toList = part offset count xs)
    (hcovers : Covers xs.length offset count) : data.elements t count.toNat = .ok data.values := by
  rw [elements_of_type htype, hvalues, List.take_of_length_le (Nat.le_of_eq (length_part hcovers)),
    ← hvalues]

/-- Carrying over a run, and then others, is carrying over all of them. -/
theorem revise_carried_overlay {start stop : Nat} {rest : List (Nat × Nat)} {xs : List Scalar}
    (hstop : stop ≤ xs.length) (ys : List Scalar) :
    revise (carried rest 0 0 xs) (overlay start (part start (stop - start : Int) xs) ys) =
      revise (carried ((start, stop) :: rest) 0 0 xs) ys := by
  rw [overlay, revise_revise]
  refine revise_congr fun i _ => ?_
  have hrun : carried [(start, stop)] 0 0 (xs ++ []) i = _ :=
    carried_run (Nat.zero_le start) ((Nat.zero_add _).symm ▸ hstop)
  have hlast : carried ((start, stop) :: rest) 0 0 xs i =
      carried (rest ++ [(start, stop)]) 0 0 xs i := by
    simp [carried, or_comm]
  rw [List.append_nil] at hrun
  rw [hlast, carried_append, hrun, Nat.sub_zero, part]
  congr
  omega

/-- An operation inside a vector that no store holds yet. -/
theorem Kept.of_new_touched {fresh fresh' : Descriptor} {m' : Memory}
    (hkept : Kept F [] [] S₀ m₀ S m) (hnew : ∀ b ∈ fresh.buffers, m₀.buffer b = none)
    (h : Descriptor.Touched fresh.buffers [] fresh m fresh' m') : Kept F [] [] S₀ m₀ S m' :=
  ⟨hkept.vectors, hkept.memory.trans h.memory (fun b hb => .inr (hnew b hb)) fun _ hc =>
    absurd hc List.not_mem_nil, hkept.sessions⟩

/-- Moving runs through the host carries their elements over to the new vector. -/
theorem moveRuns_ensures (hS : S₀.Valid F m₀) (hv : S₀.vectors[v]? = some d)
    {runs : List (Nat × Nat)} : ∀ {fresh : Descriptor} {S : Store} {m : Memory},
    Kept F [] [] S₀ m₀ S m → fresh.Valid m → fresh.type = d.type →
    (∀ b ∈ fresh.buffers, m₀.buffer b = none) → (∀ r ∈ runs, r.1 < r.2) →
    (moveRuns v fresh runs).Ensures (deviceContract A F.suits)
      (fun fresh' S' m' => Kept F [] [] S₀ m₀ S' m' ∧ fresh'.forget = fresh.forget ∧
        fresh'.Valid m' ∧ fresh'.contents m' =
          revise (carried runs 0 0 (d.contents m₀)) (fresh.contents m))
      (fun _ S' m' => Kept F [] [] S₀ m₀ S' m') S m := by
  induction runs with
  | nil =>
    intro fresh S m hkept hvalid _ _ _
    refine ⟨hkept, rfl, hvalid, (revise_eq_self fun i _ => ?_).symm⟩
    exact carried_eq_none not_inRuns_nil
  | cons r rest ih =>
    obtain ⟨start, stop⟩ := r
    intro fresh S m hkept hvalid htype hnew hruns
    have hlt : start < stop := hruns _ List.mem_cons_self
    -- the vector may have other events by now
    obtain ⟨d₁, hv₁, hsame⟩ := hkept.exists_after hv
    rw [moveRuns, Task.ensures_bind, onVector_ensures_of_some hv₁]
    have hcontents := hkept.contents hS hv hv₁ fun _ _ => List.not_mem_nil
    have hvalid₁ := ((hkept.valid hS).vectors v d₁ hv₁).1
    refine (readRange_ensures hvalid₁).imp ?_ fun e d' m' h =>
      hkept.trans (.of_touched (hkept.valid hS) hv₁ h.1)
    intro data d₂ m₂ hpost
    obtain ⟨htouched, hcovers, hdata, -, hvalues⟩ := hpost
    have hkept₂ := hkept.trans (.of_touched (hkept.valid hS) hv₁ htouched)
    have hvalid₂ := hvalid.of_differs htouched.memory
    simp only [Task.ensures_bind, Task.ensures_runOn]
    refine (Vector.write_ensures hvalid₂).imp ?_ fun e fresh' m' h => hkept₂.of_new_touched hnew h.1
    intro _ fresh₃ m₃ hpost
    obtain ⟨htouched₃, -, values, helements, -, hcontents₃⟩ := hpost
    have hsame₃ := htouched₃.same
    refine (ih (hkept₂.of_new_touched hnew htouched₃) (htouched₃.valid hvalid₂)
      ((Descriptor.type_of_forget hsame₃).trans htype)
      (by rwa [Descriptor.buffers_of_forget hsame₃]) fun r hr =>
      hruns r (List.mem_cons_of_mem _ hr)).imp_ok ?_
    intro fresh₄ S₄ m₄ hpost
    obtain ⟨hkept₄, hsame₄, hvalid₄, hcontents₄⟩ := hpost
    refine ⟨hkept₄, hsame₄.trans hsame₃, hvalid₄, ?_⟩
    -- what has been read is what the vector held before, in the type of the new one
    have hread : values.toList = part start (stop - start) (d.contents m₀) := by
      rw [← hcontents, ← hvalues, ← Except.ok.inj (helements.symm.trans (elements_of_part
        (hdata.trans (by rw [htype, Descriptor.type_of_forget hsame])) hvalues
        (hvalid₁.length_contents ▸ hcovers)))]
    have hbehind : stop ≤ (d.contents m₀).length := by
      rw [← hcontents, hvalid₁.length_contents]
      rcases hcovers with h | h <;> omega
    rw [hcontents₄, hcontents₃, hread, hvalid.contents_of_differs htouched.memory fun _ _ =>
      List.not_mem_nil]
    exact revise_carried_overlay hbehind (fresh.contents m)

/-- A vector of another size on the same devices holds the first elements, and zeros behind them. A
failure changes nothing but events. -/
theorem resizePreserving_ensures (hS : S.Valid F m) (hp : Represents S m p) {size : Int} :
    (resizePreserving v size).Ensures (deviceContract A F.suits)
      (fun _ S' m' => Becomes F (p.resizePreserving v size) S' m')
      (fun _ S' m' => Kept F [] [] S m S' m') S m := by
  rw [resizePreserving, resizePreservingBy, Task.ensures_bind, vector_ensures]
  refine ⟨fun d hv => ?_, fun _ => .refl hS [] []⟩
  obtain ⟨hvalid, huse⟩ := hS.vectors v d hv
  have hoffers : p.Offers (.count size) none := ⟨nofun, nofun⟩
  rw [Task.ensures_bind]
  refine (make_ensures hS hp huse hoffers).imp_ok ?_
  intro fresh S₁ m₁ hmade
  obtain ⟨n, host, hextent, hsize, htype, hinitial⟩ := hmade.elements
  obtain ⟨rfl, rfl⟩ : size = n ∧ none = host := by simpa [Plain.extent] using hextent
  have htype : fresh.type = d.type := (Except.ok.inj htype).symm
  have hcount : size.toNat = fresh.size := by omega
  -- the new vector holds zeros, and stays a vector apart until it replaces the old one
  have hzeros : fresh.contents m₁ = List.replicate fresh.size d.type.zero := by
    rw [← hcount, ← htype]
    exact (Option.some_inj.mp hinitial).symm
  simp only [Task.ensures_bind, Task.ensures_runOn, setVector, Task.ensures_modify]
  generalize hkeep : min d.size fresh.size = keep
  generalize hpieces : keptPieces keep 0 0 0 (d.shards.zip fresh.shards) = pieces
  refine (copyKept_ensures (hvalid.of_differs hmade.kept.memory) hmade.valid htype hmade.devices
    (fun b hb hb' => hvalid.notMem_of_new (hmade.new b hb') hb) hpieces).imp ?_
    fun e fresh' m' h => hmade.kept.of_new_touched hmade.new h.2
  intro _ fresh₂ m₂ hpost
  obtain ⟨htouched, hcopied⟩ := hpost
  have hkept := hmade.kept.of_new_touched hmade.new htouched
  have hsame := htouched.same
  refine waitAll_ensures ?_ fun _ => hkept
  refine (moveRuns_ensures hS hv hkept (htouched.valid hmade.valid)
    ((Descriptor.type_of_forget hsame).trans htype)
    (by rw [Descriptor.buffers_of_forget hsame]; exact hmade.new) fun r => lt_of_mem_gaps).imp_ok ?_
  intro fresh₃ S₃ m₃ hpost
  obtain ⟨hkept₃, hsame₃, hvalid₃, hmoved⟩ := hpost
  have hsame₃ := hsame₃.trans hsame
  have hreplace := hkept₃.becomes_replace hS hp hvalid₃
    (by rw [Descriptor.devices_of_forget hsame₃, hmade.devices]; exact huse)
    (by rw [Descriptor.buffers_of_forget hsame₃]; exact hmade.new) hv
  -- what stays on its device and what changes it are the first elements together
  have hruns : ∀ i, InRuns (gaps keep 0 pieces ++ pieces.map KeptPiece.run) i ↔
      i < keep := fun i => by
    rw [← hpieces, inRuns_gaps_append (Nat.zero_le _)]
    exact and_iff_right (Nat.zero_le i)
  have hcontents : fresh₃.contents m₃ =
      (d.contents m).take keep ++ List.replicate (fresh.size - keep) d.type.zero := by
    rw [hmoved, hcopied, hvalid.contents_of_differs hmade.kept.memory fun _ _ => List.not_mem_nil,
      hzeros, revise_revise, ← revise_carried hruns
        (by rw [hvalid.length_contents]; omega) (by omega)]
    exact revise_congr fun i _ => carried_append.symm
  have htarget : (d.contents m).take keep ++ List.replicate (fresh.size - keep) d.type.zero =
      (d.contents m).take size.toNat ++
        List.replicate (size.toNat - (d.contents m).length) d.type.zero := by
    have htake : (d.contents m).take keep = (d.contents m).take size.toNat := by
      rw [List.take_eq_take_iff, hvalid.length_contents]
      omega
    rw [htake, hvalid.length_contents, show fresh.size - keep = size.toNat - d.size by omega]
  rw [hcontents, htarget, Descriptor.type_of_forget hsame₃, htype] at hreplace
  simpa [Plain.resizePreserving, hp.getElem?_eq_some hv] using hreplace

end Store

end DistributedVector
