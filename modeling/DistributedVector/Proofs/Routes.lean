import DistributedVector.Proofs.Commands
import DistributedVector.Proofs.Resize

/-!
# Which way elements go

When a vector changes its size on the same devices, an element that is kept has one owner before and
one after. The pieces that are copied are the elements whose owner stays, each from its place to its
new place; the gaps between the pieces are the elements whose owner changes, in runs that are as
long as they can be. So every element that is kept goes one way, once.

## Main definitions

* `Descriptor.owner?` — the shard that owns an element
* `Vector.staying` — the elements whose owner stays, with their places before and after
* `Vector.Changing` — the runs of elements whose owner changes

## Main results

* `flatMap_copies` — the pieces are what stays
* `changing_gaps` — the gaps are what changes
-/

namespace DistributedVector

/-- The shard that owns an element. -/
def Descriptor.owner? (d : Descriptor) (i : Nat) : Option Nat := d.places[i]?.map (·.1)

namespace Vector

/-- Among the first elements of a vector those that the same shard owns in another one, in order,
each with its place before and after. -/
def staying (d fresh : Descriptor) (keep : Nat) : List (Place × Place) :=
  (((d.places.zip fresh.places).take keep).filter fun x => x.1.1 = x.2.1).map
    fun x => (x.1.2, x.2.2)

/-- Runs of elements, of which none can be longer: they hold those of the first elements of a vector
that different shards own in another one, and there are others between them. -/
structure Changing (d fresh : Descriptor) (keep : Nat) (runs : List (Nat × Nat)) : Prop where
  nonempty : ∀ r ∈ runs, r.1 < r.2
  apart : runs.Pairwise fun r r' => r.2 < r'.1
  positions : ∀ i, InRuns runs i ↔ i < keep ∧ d.owner? i ≠ fresh.owner? i

end Vector

/-! ## Parts of a list -/

theorem drop_eq_take_append {α : Type} {xs : List α} {a b : Nat} (hab : a ≤ b) :
    xs.drop a = (xs.drop a).take (b - a) ++ xs.drop b := by
  have hdrop : xs.drop b = (xs.drop a).drop (b - a) := by
    rw [List.drop_drop, Nat.add_sub_cancel' hab]
  rw [hdrop, List.take_append_drop]

/-- What satisfies a condition are parts of a list, if their positions are those where it holds. -/
theorem filter_drop_eq_flatMap {α : Type} {xs : List α} {P : α → Bool}
    {runs : List (Nat × Nat)} {start : Nat} (hordered : runs.Pairwise fun r r' => r.2 ≤ r'.1)
    (hbounds : ∀ r ∈ runs, start ≤ r.1 ∧ r.1 ≤ r.2)
    (hpositions : ∀ i x, start ≤ i → xs[i]? = some x → (P x ↔ InRuns runs i)) :
    (xs.drop start).filter P = runs.flatMap fun r => (xs.drop r.1).take (r.2 - r.1) := by
  induction runs generalizing start with
  | nil =>
    refine List.filter_eq_nil_iff.mpr fun x hx hP => ?_
    obtain ⟨i, hi⟩ := List.getElem?_of_mem hx
    rw [List.getElem?_drop] at hi
    exact not_inRuns_nil ((hpositions _ x (Nat.le_add_right start i) hi).mp hP)
  | cons r rest ih =>
    -- `start` is where the run before has ended
    obtain ⟨a, b⟩ := r
    obtain ⟨hfirst, hrest⟩ := List.pairwise_cons.mp hordered
    obtain ⟨hstart, hab⟩ := hbounds _ List.mem_cons_self
    dsimp only at hfirst hstart hab
    have hlater : ∀ r ∈ rest, b ≤ r.1 ∧ r.1 ≤ r.2 := fun r hr =>
      ⟨hfirst r hr, (hbounds r (List.mem_cons_of_mem _ hr)).2⟩
    have hbehind : ∀ i, InRuns rest i → b ≤ i := by
      rintro i ⟨r, hr, hi⟩
      have := (hlater r hr).1
      omega
    -- nothing in front of the first run, and all of it
    have hfront : ((xs.drop start).take (a - start)).filter P = [] := by
      refine List.filter_eq_nil_iff.mpr fun x hx hP => ?_
      obtain ⟨i, hi⟩ := List.getElem?_of_mem hx
      rw [List.getElem?_take, List.getElem?_drop] at hi
      split at hi
      · rcases inRuns_cons.mp ((hpositions _ x (Nat.le_add_right start i) hi).mp hP) with hin | hin
        · omega
        · have := hbehind _ hin
          omega
      · cases hi
    have hrun : ((xs.drop a).take (b - a)).filter P = (xs.drop a).take (b - a) := by
      refine List.filter_eq_self.mpr fun x hx => ?_
      obtain ⟨i, hi⟩ := List.getElem?_of_mem hx
      rw [List.getElem?_take, List.getElem?_drop] at hi
      split at hi
      · exact (hpositions _ x (by omega) hi).mpr (inRuns_cons.mpr (.inl ⟨by omega, by omega⟩))
      · cases hi
    -- behind the first run only the others matter
    have hothers : (xs.drop b).filter P = rest.flatMap fun r => (xs.drop r.1).take (r.2 - r.1) := by
      refine ih hrest hlater fun i x hi hx => ?_
      rw [hpositions i x (by omega) hx, inRuns_cons]
      exact or_iff_right fun hin => by omega
    rw [drop_eq_take_append hstart, List.filter_append, hfront, List.nil_append,
      drop_eq_take_append hab, List.filter_append, hrun, hothers, List.flatMap_cons]

/-! ## Pieces and gaps -/

section Pieces

variable {keep index o n i k : Nat} {pairs : List (Shard × Shard)} {p : KeptPiece} {q q' : Place}

theorem bounds_of_mem_keptPieces (hp : p ∈ keptPieces keep index o n pairs) :
    max o n ≤ p.start ∧ p.start < p.stop ∧ p.stop ≤ keep := by
  induction pairs generalizing index o n with
  | nil => cases hp
  | cons pair rest ih =>
    obtain ⟨old, new⟩ := pair
    simp only [keptPieces] at hp
    split at hp
    · rcases List.mem_cons.mp hp with rfl | hp
      · dsimp only
        omega
      · have := ih hp
        omega
    · have := ih hp
      omega

theorem pairwise_keptPieces :
    (keptPieces keep index o n pairs).Pairwise fun p p' => p.stop ≤ p'.start := by
  induction pairs generalizing index o n with
  | nil => exact .nil
  | cons pair rest ih =>
    obtain ⟨old, new⟩ := pair
    simp only [keptPieces]
    split
    · refine List.pairwise_cons.mpr ⟨fun p' hp' => ?_, ih⟩
      have := bounds_of_mem_keptPieces hp'
      dsimp only
      omega
    · exact ih

/-- A part of the places of the first shard. -/
theorem take_drop_placesFrom {s : Shard} {rest : List Shard} {a k : Nat}
    (hroom : a + k ≤ s.length) : ((placesFrom index (s :: rest)).drop a).take k =
      (Place.row s.device s.buffer a k).map (index, ·) := by
  rw [placesFrom, List.drop_append_of_le_length (by simp; omega),
    List.take_append_of_le_length (by simp; omega), ← List.map_drop, ← List.map_take,
    Place.take_drop_row, Int.zero_add, Nat.min_eq_left (by omega)]

/-- Behind the first shard lie the places of the others. -/
theorem drop_placesFrom {s : Shard} {rest : List Shard} {a : Nat} (ha : s.length ≤ a) :
    (placesFrom index (s :: rest)).drop a = (placesFrom (index + 1) rest).drop (a - s.length) := by
  rw [placesFrom, List.drop_append, List.drop_eq_nil_of_le (by simpa using ha), List.nil_append,
    List.length_map, Place.length_row]

/-- A piece is a part of a shard, before and after. -/
theorem places_of_mem_keptPieces (hdevices : ∀ pair ∈ pairs, pair.1.device = pair.2.device)
    (hp : p ∈ keptPieces keep index o n pairs) :
    ((placesFrom index (pairs.map (·.1))).drop (p.start - o)).take (p.stop - p.start) =
        (Place.row p.device p.source (p.start - p.oldStart : Nat) (p.stop - p.start)).map
        (p.shard, ·) ∧
      ((placesFrom index (pairs.map (·.2))).drop (p.start - n)).take (p.stop - p.start) =
        (Place.row p.device p.target (p.start - p.newStart : Nat) (p.stop - p.start)).map
        (p.shard, ·) := by
  induction pairs generalizing index o n with
  | nil => cases hp
  | cons pair rest ih =>
    obtain ⟨old, new⟩ := pair
    simp only [keptPieces] at hp
    by_cases hfirst : p ∈ keptPieces keep (index + 1) (o + old.length) (n + new.length) rest
    · -- the piece lies behind the first shard, before and after
      have hbounds := bounds_of_mem_keptPieces hfirst
      obtain ⟨hold, hnew⟩ :=
        ih (fun pair hpair => hdevices pair (List.mem_cons_of_mem _ hpair)) hfirst
      simp only [List.map_cons]
      rw [drop_placesFrom (by omega), drop_placesFrom (by omega), Nat.sub_sub, Nat.sub_sub]
      exact ⟨hold, hnew⟩
    · split at hp
      · obtain rfl := (List.mem_cons.mp hp).resolve_right hfirst
        have hdevice : old.device = new.device := hdevices _ List.mem_cons_self
        simp only [List.map_cons]
        rw [take_drop_placesFrom (by omega), take_drop_placesFrom (by omega), hdevice]
        exact ⟨rfl, rfl⟩
      · exact absurd hp hfirst

/-- A place is one of the first shard, or one of the others. -/
theorem getElem?_placesFrom_cons {s : Shard} {rest : List Shard}
    (h : (placesFrom index (s :: rest))[i]? = some (k, q)) : i < s.length ∧ k = index ∨
      s.length ≤ i ∧ index < k ∧ (placesFrom (index + 1) rest)[i - s.length]? = some (k, q) := by
  rcases Nat.lt_or_ge i s.length with hlt | hge
  · rw [placesFrom, List.getElem?_append_left (by simpa using hlt), List.getElem?_map] at h
    obtain ⟨_, -, hq⟩ := Option.map_eq_some_iff.mp h
    exact .inl ⟨hlt, (congrArg Prod.fst hq).symm⟩
  · rw [placesFrom, List.getElem?_append_right (by simpa using hge), List.length_map,
      Place.length_row] at h
    obtain ⟨j, -, rfl, -⟩ := mem_placesFrom.mp (List.mem_of_getElem? h)
    exact .inr ⟨hge, by omega, h⟩

/-- An element whose owner stays lies in a piece. -/
theorem inRuns_of_places (hkeep : i < keep) (ho : o ≤ i) (hn : n ≤ i)
    (hold : (placesFrom index (pairs.map (·.1)))[i - o]? = some (k, q))
    (hnew : (placesFrom index (pairs.map (·.2)))[i - n]? = some (k, q')) :
    InRuns ((keptPieces keep index o n pairs).map KeptPiece.run) i := by
  induction pairs generalizing index o n with
  | nil => cases hold
  | cons pair rest ih =>
    obtain ⟨old, new⟩ := pair
    simp only [List.map_cons] at hold hnew
    rcases getElem?_placesFrom_cons hold with ⟨hold, rfl⟩ | ⟨hold, hlt, hold'⟩ <;>
      rcases getElem?_placesFrom_cons hnew with ⟨hnew, hk⟩ | ⟨hnew, hlt', hnew'⟩
    · -- both are places of the first shard
      simp only [keptPieces]
      rw [if_pos (by omega), List.map_cons, KeptPiece.run, inRuns_cons]
      dsimp only
      omega
    · exact absurd hlt' (Nat.lt_irrefl k)
    · exact absurd hlt (hk ▸ Nat.lt_irrefl k)
    · rw [Nat.sub_sub] at hold' hnew'
      have hrest := ih (by omega) (by omega) hold' hnew'
      simp only [keptPieces]
      split
      · exact inRuns_cons.mpr (.inr hrest)
      · exact hrest

variable {pieces : List KeptPiece} {position : Nat} {r : Nat × Nat}

theorem bounds_of_mem_gaps (hordered : pieces.Pairwise fun p p' => p.stop ≤ p'.start)
    (hbounds : ∀ p ∈ pieces, position ≤ p.start ∧ p.start < p.stop ∧ p.stop ≤ keep)
    (hr : r ∈ gaps keep position pieces) : position ≤ r.1 ∧ r.2 ≤ keep := by
  induction pieces generalizing position with
  | nil =>
    rw [gaps] at hr
    split at hr
    · obtain rfl := List.mem_singleton.mp hr
      exact ⟨Nat.le_refl _, Nat.le_refl _⟩
    · cases hr
  | cons p rest ih =>
    obtain ⟨hfirst, hordered⟩ := List.pairwise_cons.mp hordered
    obtain ⟨hp, hrest⟩ := List.forall_mem_cons.mp hbounds
    have hothers : r ∈ gaps keep p.stop rest → position ≤ r.1 ∧ r.2 ≤ keep := fun hr => by
      have := ih hordered (fun p' hp' => ⟨hfirst p' hp', (hrest p' hp').2⟩) hr
      omega
    simp only [gaps] at hr
    split at hr
    · rcases List.mem_cons.mp hr with rfl | hr
      · exact ⟨Nat.le_refl _, by omega⟩
      · exact hothers hr
    · exact hothers hr

/-- Between two gaps lies a piece. -/
theorem pairwise_gaps (hordered : pieces.Pairwise fun p p' => p.stop ≤ p'.start)
    (hbounds : ∀ p ∈ pieces, position ≤ p.start ∧ p.start < p.stop ∧ p.stop ≤ keep) :
    (gaps keep position pieces).Pairwise fun r r' => r.2 < r'.1 := by
  induction pieces generalizing position with
  | nil =>
    rw [gaps]
    split
    · exact List.pairwise_singleton _ _
    · exact .nil
  | cons p rest ih =>
    obtain ⟨hfirst, hordered⟩ := List.pairwise_cons.mp hordered
    obtain ⟨hp, hrest⟩ := List.forall_mem_cons.mp hbounds
    have hbounds' : ∀ p' ∈ rest, p.stop ≤ p'.start ∧ p'.start < p'.stop ∧ p'.stop ≤ keep :=
      fun p' hp' => ⟨hfirst p' hp', (hrest p' hp').2⟩
    simp only [gaps]
    split
    -- later gaps start behind a piece that is not empty
    · refine List.pairwise_cons.mpr ⟨fun r hr => ?_, ih hordered hbounds'⟩
      have := bounds_of_mem_gaps hordered hbounds' hr
      dsimp only
      omega
    · exact ih hordered hbounds'

/-- No gap meets a piece. -/
theorem not_inRuns_gaps (hordered : pieces.Pairwise fun p p' => p.stop ≤ p'.start)
    (hbounds : ∀ p ∈ pieces, position ≤ p.start ∧ p.start < p.stop ∧ p.stop ≤ keep)
    (hi : InRuns (pieces.map KeptPiece.run) i) : ¬ InRuns (gaps keep position pieces) i := by
  induction pieces generalizing position with
  | nil => exact absurd hi not_inRuns_nil
  | cons p rest ih =>
    obtain ⟨hfirst, hordered⟩ := List.pairwise_cons.mp hordered
    obtain ⟨hp, hrest⟩ := List.forall_mem_cons.mp hbounds
    have hbounds' : ∀ p' ∈ rest, p.stop ≤ p'.start ∧ p'.start < p'.stop ∧ p'.stop ≤ keep :=
      fun p' hp' => ⟨hfirst p' hp', (hrest p' hp').2⟩
    rw [List.map_cons, KeptPiece.run, inRuns_cons] at hi
    -- the gap before the first piece ends where it starts, and the others start behind it
    have hbehind : InRuns (rest.map KeptPiece.run) i → p.stop ≤ i := by
      rintro ⟨_, hr, hi⟩
      obtain ⟨p', hp', rfl⟩ := List.mem_map.mp hr
      exact Nat.le_trans (hfirst p' hp') hi.1
    have hothers : ¬ InRuns (gaps keep p.stop rest) i := by
      intro hgap
      rcases hi with hi | hi
      · obtain ⟨r, hr, hi'⟩ := hgap
        have := (bounds_of_mem_gaps hordered hbounds' hr).1
        omega
      · exact ih hordered hbounds' hi hgap
    simp only [gaps]
    split
    · rw [inRuns_cons]
      rintro (hgap | hgap)
      · rcases hi with hi | hi
        · omega
        · have := hbehind hi
          omega
      · exact hothers hgap
    · exact hothers

end Pieces

/-! ## What stays and what changes -/

namespace Vector

open Descriptor

variable {d fresh : Descriptor} {keep : Nat}

/-- Elements in a part of one shard have the same owner. -/
theorem owner?_of_take_drop {a k s i : Nat} {qs : List Place}
    (h : (d.places.drop a).take k = qs.map (s, ·)) (hlength : qs.length = k)
    (hi : a ≤ i ∧ i < a + k) : d.owner? i = some s := by
  have hentry := congrArg (·[i - a]?) h
  have hlt : i - a < qs.length := by omega
  rw [List.getElem?_take_of_lt (by omega), List.getElem?_drop, Nat.add_sub_cancel' hi.1,
    List.getElem?_map, List.getElem?_eq_getElem hlt] at hentry
  rw [owner?, hentry]
  rfl

/-- A piece is a part of both vectors, in shards of the same number. -/
theorem places_of_piece (hdevices : fresh.devices = d.devices) {p : KeptPiece}
    (hp : p ∈ keptPieces keep 0 0 0 (d.shards.zip fresh.shards)) :
    (d.places.drop p.start).take (p.stop - p.start) =
        (Place.row p.device p.source (p.start - p.oldStart : Nat) (p.stop - p.start)).map
        (p.shard, ·) ∧
      (fresh.places.drop p.start).take (p.stop - p.start) =
        (Place.row p.device p.target (p.start - p.newStart : Nat) (p.stop - p.start)).map
        (p.shard, ·) := by
  obtain ⟨hfst, hsnd, halike⟩ := zip_shards (f := (·.device)) hdevices.symm
  have hplaces := places_of_mem_keptPieces halike hp
  rwa [hfst, hsnd, Nat.sub_zero] at hplaces

/-- The elements below a number that two vectors on the same devices keep where they are. -/
theorem inRuns_keptPieces (hdevices : fresh.devices = d.devices) (hold : keep ≤ d.size)
    (hnew : keep ≤ fresh.size) {i : Nat} :
    InRuns ((keptPieces keep 0 0 0 (d.shards.zip fresh.shards)).map KeptPiece.run) i ↔
      i < keep ∧ d.owner? i = fresh.owner? i := by
  constructor
  · rintro ⟨_, hr, hi⟩
    obtain ⟨p, hp, rfl⟩ := List.mem_map.mp hr
    have hbounds := bounds_of_mem_keptPieces hp
    obtain ⟨hbefore, hafter⟩ := places_of_piece hdevices hp
    have hi : p.start ≤ i ∧ i < p.stop := hi
    -- a piece is a part of one shard, before and after
    refine ⟨by omega, ?_⟩
    rw [owner?_of_take_drop hbefore Place.length_row (by omega),
      owner?_of_take_drop hafter Place.length_row (by omega)]
  · rintro ⟨hi, howner⟩
    obtain ⟨hfst, hsnd, -⟩ := zip_shards (f := (·.device)) hdevices.symm
    have hlt : i < d.places.length := by
      rw [length_places]
      omega
    have hlt' : i < fresh.places.length := by
      rw [length_places]
      omega
    -- the element has places in shards of the same number
    rw [owner?, owner?, List.getElem?_eq_getElem hlt, List.getElem?_eq_getElem hlt',
      Option.map_some, Option.map_some, Option.some_inj] at howner
    have hbefore : (placesFrom 0 ((d.shards.zip fresh.shards).map (·.1)))[i]? =
        some d.places[i] := by
      rw [hfst]
      exact List.getElem?_eq_getElem hlt
    have hafter : (placesFrom 0 ((d.shards.zip fresh.shards).map (·.2)))[i]? =
        some (d.places[i].1, fresh.places[i].2) := by
      rw [hsnd, howner]
      exact List.getElem?_eq_getElem hlt'
    exact inRuns_of_places hi (Nat.zero_le i) (Nat.zero_le i) hbefore hafter

/-- The elements that stay on their devices are those in the runs of the pieces. -/
theorem filter_places_eq_flatMap (hdevices : fresh.devices = d.devices) (hold : keep ≤ d.size)
    (hnew : keep ≤ fresh.size) :
    ((d.places.zip fresh.places).take keep).filter (fun x => x.1.1 = x.2.1) =
      ((keptPieces keep 0 0 0 (d.shards.zip fresh.shards)).map KeptPiece.run).flatMap fun r =>
        (((d.places.zip fresh.places).take keep).drop r.1).take (r.2 - r.1) := by
  refine (congrArg (List.filter _) List.drop_zero.symm).trans (filter_drop_eq_flatMap ?_ ?_ ?_)
  · exact List.pairwise_map.mpr pairwise_keptPieces
  · rintro _ hr
    obtain ⟨p, hp, rfl⟩ := List.mem_map.mp hr
    have hbounds := bounds_of_mem_keptPieces hp
    exact ⟨Nat.zero_le _, Nat.le_of_lt hbounds.2.1⟩
  · intro i x _ hx
    rw [inRuns_keptPieces hdevices hold hnew]
    rw [List.getElem?_take] at hx
    split at hx
    next hi =>
      obtain ⟨hbefore, hafter⟩ := List.getElem?_zip_eq_some.mp hx
      simp [owner?, hbefore, hafter, hi]
    · cases hx

/-- The pieces are copied from where the elements are that stay to where they will be. -/
theorem flatMap_copies (hdevices : fresh.devices = d.devices) (hold : keep ≤ d.size)
    (hnew : keep ≤ fresh.size) :
    (keptPieces keep 0 0 0 (d.shards.zip fresh.shards)).flatMap (fun p => p.copying.call.copies) =
      staying d fresh keep := by
  rw [staying, filter_places_eq_flatMap hdevices hold hnew, List.map_flatMap, List.flatMap_map]
  refine List.flatMap_congr fun p hp => ?_
  have hbounds := bounds_of_mem_keptPieces hp
  obtain ⟨hbefore, hafter⟩ := places_of_piece hdevices hp
  -- a piece cuts the pairs of places as it cuts both lists
  have hpart : (((d.places.zip fresh.places).take keep).drop p.start).take (p.stop - p.start) =
      ((d.places.drop p.start).take (p.stop - p.start)).zip
        ((fresh.places.drop p.start).take (p.stop - p.start)) := by
    rw [List.drop_take, List.take_take, Nat.min_eq_left (by omega)]
    simp only [List.zip, List.drop_zipWith, List.take_zipWith]
  rw [KeptPiece.run, hpart, hbefore, hafter, List.zip_map, List.map_map]
  exact (List.map_id _).symm

/-- The gaps between the pieces are the runs of what changes. -/
theorem changing_gaps (hdevices : fresh.devices = d.devices) (hold : keep ≤ d.size)
    (hnew : keep ≤ fresh.size) :
    Changing d fresh keep (gaps keep 0 (keptPieces keep 0 0 0 (d.shards.zip fresh.shards))) := by
  have hordered : (keptPieces keep 0 0 0 (d.shards.zip fresh.shards)).Pairwise _ :=
    pairwise_keptPieces
  have hbounds : ∀ p ∈ keptPieces keep 0 0 0 (d.shards.zip fresh.shards),
      0 ≤ p.start ∧ p.start < p.stop ∧ p.stop ≤ keep := fun p hp =>
    ⟨Nat.zero_le _, (bounds_of_mem_keptPieces hp).2⟩
  refine ⟨fun r => lt_of_mem_gaps, pairwise_gaps hordered hbounds, fun i => ?_⟩
  have hall : InRuns (gaps keep 0 (keptPieces keep 0 0 0 (d.shards.zip fresh.shards)) ++ _) i ↔ _ :=
    inRuns_gaps_append (Nat.zero_le (max 0 0))
  have hpieces := inRuns_keptPieces hdevices hold hnew (i := i)
  have hapart := not_inRuns_gaps (i := i) hordered hbounds
  rw [inRuns_append, hpieces, and_iff_right (Nat.zero_le i)] at hall
  rw [hpieces] at hapart
  -- together, gaps and pieces hold all elements, and none of them twice
  constructor
  · intro hgap
    exact ⟨hall.mp (.inl hgap), fun howner => hapart ⟨hall.mp (.inl hgap), howner⟩ hgap⟩
  · rintro ⟨hi, howner⟩
    exact (hall.mpr hi).resolve_right fun h => howner h.2

end Vector

end DistributedVector
