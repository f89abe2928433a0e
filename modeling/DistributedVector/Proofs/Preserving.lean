import DistributedVector.Proofs.FailedResize
import DistributedVector.Proofs.MadeApart
import DistributedVector.Proofs.Ranges
import DistributedVector.Proofs.Routes

/-!
# What resizing moves

A vector that keeps its first elements when it gets another size is made anew, away from everything
that is there. Then each element that is kept is moved once: what stays in its shard is copied on
its device, and each run of the others is read from where it was and written to where it is to be.
Nothing else is read or written, and a command that fails ends the operation.

## Main definitions

* `InTurn` — exchanges in two parts, the second of which needs the first one to succeed
* `Vector.Copied`, `Vector.Waiting`, `Vector.Routed` — the three parts of a move
* `Store.carryOver`, `Store.CarriedOver` — what follows when the new vector has been made

## Main results

* `Store.moveRuns_recorded` — runs go through the host
* `Store.Valid.resizePreserving_moves` — what a run asks devices for
-/

namespace DistributedVector

section Parts

variable {P Q : List Exchange → Prop} {ys ys' ys'' : List Exchange} {fault : Option DeviceFault}

/-- Exchanges in two parts. If a command fails in the first part, there is no second one. -/
def InTurn (P Q : List Exchange → Prop) (zs : List Exchange) : Prop :=
  ∃ ys ws, zs = ys ++ ws ∧ P ys ∧ if firstFault ys = none then Q ws else ws = []

/-- Exchanges that have been added, and the fault among them. -/
def Added (P : List Exchange → Prop) (ys : List Exchange) (fault : Option DeviceFault)
    (ys' : List Exchange) : Prop :=
  ∃ zs, ys' = ys ++ zs ∧ firstFault zs = fault ∧ P zs

theorem Added.imp (h : Added P ys fault ys') (weaker : ∀ zs, P zs → Q zs) :
    Added Q ys fault ys' := by
  obtain ⟨zs, rfl, hfault, hzs⟩ := h
  exact ⟨zs, rfl, hfault, weaker zs hzs⟩

theorem Added.of_nil (h : Added P [] fault ys) : firstFault ys = fault ∧ P ys := by
  obtain ⟨zs, rfl, hfault, hzs⟩ := h
  exact ⟨hfault, hzs⟩

/-- The second part comes where the first one has succeeded. -/
theorem Added.inTurn (h : Added P ys none ys') (h' : Added Q ys' fault ys'') :
    Added (InTurn P Q) ys fault ys'' := by
  obtain ⟨zs, rfl, hok, hzs⟩ := h
  obtain ⟨ws, rfl, hfault, hws⟩ := h'
  refine ⟨zs ++ ws, List.append_assoc .., ?_, zs, ws, rfl, hzs, ?_⟩
  · rw [firstFault_append, hok, Option.none_or, hfault]
  · rwa [if_pos hok]

theorem InTurn.imp {P' Q' : List Exchange → Prop} {zs : List Exchange} (h : InTurn P Q zs)
    (weaker : ∀ ys, P ys → P' ys) (weaker' : ∀ ws, Q ws → Q' ws) : InTurn P' Q' zs := by
  obtain ⟨ys, ws, rfl, hys, hws⟩ := h
  refine ⟨ys, ws, rfl, weaker ys hys, ?_⟩
  split at hws
  next hok => exact if_pos hok ▸ weaker' ws hws
  next hfault => exact if_neg hfault ▸ hws

/-- A fault in the first part ends all. -/
theorem Added.inTurn_of_fault {f : DeviceFault} (h : Added P ys (some f) ys') :
    Added (InTurn P Q) ys (some f) ys' := by
  obtain ⟨zs, rfl, hfault, hzs⟩ := h
  refine ⟨zs, rfl, hfault, zs, [], (List.append_nil zs).symm, hzs, ?_⟩
  rw [if_neg (by rw [hfault]; exact Option.some_ne_none f)]

end Parts

namespace Vector

/-- What stays is copied on its device, from place to place. -/
def Copied (d fresh : Descriptor) (keep : Nat) (ys : List Exchange) : Prop :=
  ∃ commands, (∀ c ∈ commands, c.copies ≠ []) ∧
    commands.flatMap Call.copies = staying d fresh keep ∧ Attempted commands ys

/-- Events are waited for. -/
def Waiting (ys : List Exchange) : Prop := ∀ y ∈ ys, ∃ device e, y.1 = .wait device e

/-- A range is moved by a transfer that waits. -/
def Moving {β : Type} (moves : Call → List (Place × β)) (d : Descriptor) (offset count : Int)
    (host : List β) (ys : List Exchange) : Prop :=
  ∃ starts waits, ys = starts ++ waits ∧ Carried moves d offset count host true starts waits

/-- A range is read into a new array. -/
def ReadOut (d : Descriptor) (offset count : Int) (ys : List Exchange) : Prop :=
  ∃ array, ReadTarget.fresh.Gives d.type count array ∧
    Moving Call.loads d offset count (slots array count) ys

/-- Runs of elements go through the host, one after the other: each is read into a new array, and
what the vector holds there is written to the new vector. -/
def Routed (d fresh : Descriptor) (values : List Scalar) : List (Nat × Nat) → List Exchange → Prop
  | [], ys => ys = []
  | (start, stop) :: rest, ys =>
    InTurn (ReadOut d start (stop - start))
      (InTurn (Moving Call.stores fresh start (stop - start) (part start (stop - start) values))
        (Routed d fresh values rest)) ys

variable {d d' fresh : Descriptor} {keep : Nat} {ys ys' : List Exchange}
  {fault : Option DeviceFault}

/-- Where elements lie does not depend on events. -/
theorem places_of_forget (hsame : d'.forget = d.forget) : d'.places = d.places := by
  have hfrom : ∀ index (shards : List Shard),
      placesFrom index (shards.map Shard.forget) = placesFrom index shards := by
    intro index shards
    induction shards generalizing index with
    | nil => rfl
    | cons s rest ih =>
      rw [List.map_cons, placesFrom, ih]
      rfl
  have hshards : d'.shards.map Shard.forget = d.shards.map Shard.forget :=
    congrArg Descriptor.shards hsame
  rw [Descriptor.places, ← hfrom, hshards, hfrom]
  rfl

theorem Carried.of_forget {β : Type} {moves : Call → List (Place × β)} {offset count : Int}
    {host : List β} {blocking : Bool} {starts waits : List Exchange} (hsame : d'.forget = d.forget)
    (h : Carried moves d' offset count host blocking starts waits) :
    Carried moves d offset count host blocking starts waits := by
  obtain ⟨commands, ⟨hshards, helements⟩, hrest⟩ := h
  have hplaces := places_of_forget hsame
  have hlength : d'.shards.length = d.shards.length := by
    rw [← Descriptor.length_lengths, Descriptor.lengths_of_forget hsame, Descriptor.length_lengths]
  have htouched : d'.touched offset count = d.touched offset count := by
    rw [Descriptor.touched, hplaces, hlength]
    rfl
  rw [hplaces, htouched] at hshards
  rw [hplaces] at helements
  exact ⟨commands, ⟨hshards, helements⟩, hrest⟩

theorem Moving.of_forget {β : Type} {moves : Call → List (Place × β)} {offset count : Int}
    {host : List β} (hsame : d'.forget = d.forget) (h : Moving moves d' offset count host ys) :
    Moving moves d offset count host ys := by
  obtain ⟨starts, waits, hys, hcarried⟩ := h
  exact ⟨starts, waits, hys, hcarried.of_forget hsame⟩

theorem Routed.of_forget {values : List Scalar} {runs : List (Nat × Nat)} {fresh' : Descriptor}
    (hsame : fresh'.forget = fresh.forget) (h : Routed d fresh' values runs ys) :
    Routed d fresh values runs ys := by
  induction runs generalizing ys with
  | nil => exact h
  | cons r rest ih =>
    exact InTurn.imp h (fun _ => id) fun _ hwritten =>
      hwritten.imp (fun _ => Moving.of_forget hsame) fun _ => ih

/-- A transfer that waits is a move. -/
theorem Ends.added {β : Type} {moves : Call → List (Place × β)} {offset count : Int} {host : List β}
    {d'' : Descriptor} (hsame : d'.forget = d.forget)
    (h : Ends moves d' offset count host true ys fault d'' ys') :
    Added (Moving moves d offset count host) ys fault ys' := by
  obtain ⟨starts, waits, hys, hfault, hcarried, -⟩ := h
  exact ⟨starts ++ waits, hys, hfault, starts, waits, rfl, hcarried.of_forget hsame⟩

theorem Started.added_copied (hdevices : fresh.devices = d.devices) (hold : keep ≤ d.size)
    (hnew : keep ≤ fresh.size)
    (h : Started ((keptPieces keep 0 0 0 (d.shards.zip fresh.shards)).map fun p =>
      (p.shard, p.copying)) fresh ys fault d' ys') : Added (Copied d fresh keep) ys fault ys' := by
  obtain ⟨starts, rfl, hattempted, hfault, -⟩ := h
  rw [List.map_map] at hattempted
  refine ⟨starts, rfl, hfault, _, ?_, ?_, hattempted⟩
  · intro c hc
    obtain ⟨p, hp, rfl⟩ := List.mem_map.mp hc
    have hbounds := bounds_of_mem_keptPieces hp
    intro hnil
    have hlength := congrArg List.length hnil
    simp [KeptPiece.copying, Move.call, Call.copies] at hlength
    omega
  · rw [List.flatMap_map]
    exact flatMap_copies hdevices hold hnew

theorem Awaited.added_waiting {τ : Type} {s s' : τ} {shards : List Shard}
    (h : Awaited (shards.filterMap Shard.wait?) s ys fault s' ys') :
    Added Waiting ys fault ys' := by
  obtain ⟨-, waits, rfl, hattempted, hfault⟩ := h
  refine ⟨waits, rfl, hfault, fun y hy => ?_⟩
  obtain ⟨s, -, hwait⟩ :=
    List.mem_filterMap.mp (hattempted.isPrefix.subset (List.mem_map_of_mem hy))
  obtain ⟨e, -, he⟩ := Option.map_eq_some_iff.mp hwait
  exact ⟨s.device, e, he.symm⟩

/-- A range is read, and its elements are returned. -/
theorem readRange_ends {offset count : Int} (hsame : d'.forget = d.forget)
    (hrange : InRange d' offset count) :
    (readRange offset count).Ensures .exchanging
    (fun _ _ ys' => Added (ReadOut d offset count) ys none ys')
      (fun e _ ys' => ∃ f, e = .device f ∧ Added (ReadOut d offset count) ys (some f) ys')
      d' ys := by
  have hadded : ∀ {array fault d'' ys'}, ReadTarget.fresh.Gives d'.type count array →
      Ends Call.loads d' offset count (slots array count) true ys fault d'' ys' →
      Added (ReadOut d offset count) ys fault ys' := fun hgives hends =>
    (hends.added hsame).imp fun _ hmoving => ⟨_, Descriptor.type_of_forget hsame ▸ hgives, hmoving⟩
  rw [readRange, Task.ensures_bind]
  have hsuits : ReadTarget.fresh.Suits d'.type := trivial
  have hroom : ReadTarget.fresh.Holds count := trivial
  refine (read_ends hrange hsuits hroom).imp ?_ ?_
  · rintro array d'' ys' ⟨hgives, hends⟩
    rw [contents, Task.ensures_bind, Task.ensures_perform, Program.ensures_ask]
    refine ⟨trivial, ?_⟩
    rintro values _ rfl
    rw [show deviceSide [⟨.hostContents array.cell array.offset array.size, values⟩] = [] from rfl,
      List.append_nil]
    exact hadded hgives hends
  · rintro e d'' ys' ⟨array, f, rfl, hgives, hends⟩
    exact ⟨f, rfl, hadded hgives hends⟩

end Vector

namespace Store

open DistributedVector.Vector

variable {V : Type} {A : Arithmetic V} {F : Fleet} {m m₀ : Memory} {S S₀ : Store} {v : VectorId}
  {d : Descriptor}

/-- Runs go through the host: what is read from the vector is written to the new one. -/
theorem moveRuns_recorded (hS : S₀.Valid F m₀) (hv : S₀.vectors[v]? = some d)
    {runs : List (Nat × Nat)} :
    ∀ {fresh : Descriptor} {S : Store} {m : Memory} {ys : List Exchange},
    Kept F [] [] S₀ m₀ S m → fresh.Valid m → fresh.type = d.type →
    (∀ b ∈ fresh.buffers, m₀.buffer b = none) →
    (∀ r ∈ runs, r.1 < r.2 ∧ r.2 ≤ d.size ∧ r.2 ≤ fresh.size) →
    (moveRuns v fresh runs).Ensures (deviceContract A F.suits).recorded
      (fun fresh' _ x => fresh'.forget = fresh.forget ∧
        Added (Routed d fresh (d.contents m₀) runs) ys none x.2)
      (fun e _ x => ∃ f, e = .device f ∧ Added (Routed d fresh (d.contents m₀) runs)
        ys (some f) x.2)
      S (m, ys) := by
  induction runs with
  | nil =>
    intro fresh S m ys _ _ _ _ _
    exact ⟨rfl, [], (List.append_nil ys).symm, rfl, rfl⟩
  | cons r rest ih =>
    -- the first run is read and written; the new vector then differs in its contents and events,
    -- and `Routed` only looks at where its elements are
    obtain ⟨start, stop⟩ := r
    intro fresh S m ys hkept hvalid htype hnew hruns
    obtain ⟨⟨hlt, hold, hroom⟩, hrest⟩ := List.forall_mem_cons.mp hruns
    dsimp only at hlt hold hroom
    -- the vector may have other events by now
    obtain ⟨d₁, hv₁, hsame⟩ := hkept.exists_after hv
    rw [moveRuns, Task.ensures_bind, onVector_ensures_of_some hv₁]
    have hcontents := hkept.contents hS hv hv₁ fun _ _ => List.not_mem_nil
    have hvalid₁ := ((hkept.valid hS).vectors v d₁ hv₁).1
    have hrange := inRange_run hlt ((Descriptor.size_of_forget hsame).symm ▸ hold)
    refine ((readRange_ensures hvalid₁).recorded (readRange_ends hsame hrange)).imp ?_ ?_
    swap
    -- the read has failed
    · rintro _ d' ⟨m', ys'⟩ ⟨-, f, rfl, hread⟩
      exact ⟨f, rfl, hread.inTurn_of_fault⟩
    rintro data d₂ ⟨m₂, ys₂⟩ ⟨⟨htouched, hcovers, hdata, -, hvalues⟩, hread⟩
    have hkept₂ := hkept.trans (.of_touched (hkept.valid hS) hv₁ htouched)
    have hvalid₂ := hvalid.of_differs htouched.memory
    -- what has been read is what the vector held before, in the type of the new one
    have hcovers₁ : Covers (d₁.contents m).length start (stop - start) :=
      hvalid₁.length_contents ▸ hcovers
    have helements : data.elements fresh.type ((stop : Int) - start).toNat = .ok data.values :=
      elements_of_part (hdata.trans (by rw [htype, Descriptor.type_of_forget hsame]))
        hvalues hcovers₁
    have hsize : data.values.size = ((stop : Int) - start).toNat := by
      rw [← Array.length_toList, hvalues, length_part hcovers₁]
    rw [hcontents] at hvalues
    simp only [Task.ensures_bind, Task.ensures_runOn]
    refine ((Vector.write_ensures hvalid₂).recorded
      (write_proceeds (inRange_run hlt hroom) helements hsize)).imp ?_ ?_
    swap
    -- the write has failed
    · rintro _ fresh' ⟨m', ys'⟩ ⟨-, f, rfl, hwrite⟩
      exact ⟨f, rfl, hread.inTurn (hvalues ▸ hwrite.added rfl).inTurn_of_fault⟩
    rintro _ fresh₃ ⟨m₃, ys₃⟩ ⟨⟨htouched₃, -⟩, hwrite⟩
    have hsame₃ := htouched₃.same
    refine (ih (hkept₂.of_new_touched hnew htouched₃) (htouched₃.valid hvalid₂)
      ((Descriptor.type_of_forget hsame₃).trans htype)
      (by rwa [Descriptor.buffers_of_forget hsame₃])
      (by rwa [Descriptor.size_of_forget hsame₃])).imp ?_ ?_
    -- and what the rest leaves comes behind both
    · rintro fresh₄ S₄ ⟨m₄, ys₄⟩ ⟨hsame₄, hmoved⟩
      refine ⟨hsame₄.trans hsame₃, hread.inTurn ((hvalues ▸ hwrite.added rfl).inTurn ?_)⟩
      exact hmoved.imp fun _ => Routed.of_forget hsame₃
    · rintro _ S₄ ⟨m₄, ys₄⟩ ⟨f, rfl, hmoved⟩
      refine ⟨f, rfl, hread.inTurn ((hvalues ▸ hwrite.added rfl).inTurn ?_)⟩
      exact hmoved.imp fun _ => Routed.of_forget hsame₃

/-- What is left to do when the new vector has been made. -/
def carryOver (v : VectorId) (d fresh : Descriptor) : Task Store Unit := do
  let keep := min d.size fresh.size
  let kept := keptPieces keep 0 0 0 (d.shards.zip fresh.shards)
  -- all copies are started before the first one is waited for
  let (_, fresh) ← Task.runOn fresh (copyPieces kept)
  waitAll fresh.shards
  let fresh ← moveRuns v fresh (gaps keep 0 kept)
  -- until here the old vector stands
  setVector v fresh

/-- A vector is made anew before elements are moved. -/
theorem runFrom_resizePreserving (hv : S.vectors[v]? = some d) {size : Int} :
    (resizePreserving v size).runFrom S =
      (do carryOver v d (← make (d.resized size))).runFrom S := by
  rw [resizePreserving, resizePreservingBy, Task.runFrom_bind_of_ok (vector_runFrom hv)]
  unfold make carryOver
  rfl

/-- The elements that are kept are carried over to the new vector: those that stay are copied, these
copies are waited for, and the runs of the others go through the host. -/
def CarriesOver (d fresh : Descriptor) (values : List Scalar) : List Exchange → Prop :=
  InTurn (Copied d fresh (min d.size fresh.size)) (InTurn Waiting fun ys =>
    ∃ runs, Changing d fresh (min d.size fresh.size) runs ∧ Routed d fresh values runs ys)

theorem carryOver_recorded (hS : S₀.Valid F m₀) (hv : S₀.vectors[v]? = some d) {fresh : Descriptor}
    (hkept : Kept F [] [] S₀ m₀ S m) (hvalid : fresh.Valid m) (htype : fresh.type = d.type)
    (hdevices : fresh.devices = d.devices) (hnew : ∀ b ∈ fresh.buffers, m₀.buffer b = none) :
    (carryOver v d fresh).Ensures (deviceContract A F.suits).recorded
      (fun _ S' x => (∃ new, new.forget = fresh.forget ∧ ∀ d',
        S'.vectors[v]? = some d' → d' = new) ∧
        Added (CarriesOver d fresh (d.contents m₀)) [] none x.2)
      (fun e _ x => ∃ f, e = .device f ∧ Added (CarriesOver d fresh (d.contents m₀))
        [] (some f) x.2)
      S (m, []) := by
  have hold : min d.size fresh.size ≤ d.size := Nat.min_le_left ..
  have hroom : min d.size fresh.size ≤ fresh.size := Nat.min_le_right ..
  have hvalid₀ : d.Valid m₀ := (hS.vectors v d hv).1
  have hchanging := changing_gaps hdevices hold hroom
  simp only [carryOver, setVector, Task.ensures_bind, Task.ensures_runOn, Task.ensures_modify]
  -- copies may be asked for, since what they read and what they write lies in different buffers
  have hcopy : (copyPieces (keptPieces (min d.size fresh.size) 0 0 0
    (d.shards.zip fresh.shards))).Ensures
      (deviceContract A F.suits) _ _ fresh m :=
    copyKept_ensures (hvalid₀.of_differs hkept.memory) hvalid htype hdevices
      (fun b hb hb' => hvalid₀.notMem_of_new (hnew b hb') hb) rfl
  rw [copyPieces_eq] at hcopy ⊢
  refine (hcopy.recorded start_proceeds).imp ?_ ?_
  swap
  · rintro _ d' ⟨m', ys'⟩ ⟨-, f, rfl, hstarted⟩
    exact ⟨f, rfl, (hstarted.added_copied hdevices hold hroom).inTurn_of_fault⟩
  rintro _ fresh₁ ⟨m₁, ys₁⟩ ⟨⟨htouched, -⟩, hstarted⟩
  have hcopied := hstarted.added_copied hdevices hold hroom
  have hsame := htouched.same
  have hkept₁ := hkept.of_new_touched hnew htouched
  -- waiting changes neither store nor memory
  have hwaits : (waitAll fresh₁.shards : Task Store Unit).Ensures (deviceContract A F.suits)
      (fun _ S' m' => S' = S ∧ m' = m₁) (fun _ _ _ => True) S m₁ :=
    waitAll_ensures ⟨rfl, rfl⟩ fun _ => trivial
  refine (hwaits.recorded waitAll_proceeds).imp ?_ ?_
  swap
  · rintro _ S' ⟨m', ys'⟩ ⟨-, f, rfl, hawaited⟩
    exact ⟨f, rfl, hcopied.inTurn hawaited.added_waiting.inTurn_of_fault⟩
  rintro _ _ ⟨_, ys₂⟩ ⟨⟨rfl, rfl⟩, hawaited⟩
  have hwaited := hawaited.added_waiting
  refine (moveRuns_recorded hS hv hkept₁ (htouched.valid hvalid)
    ((Descriptor.type_of_forget hsame).trans htype)
    (by rwa [Descriptor.buffers_of_forget hsame]) fun r hr => ?_).imp ?_ ?_
  · -- the runs lie in both vectors
    have hr₁ := hchanging.nonempty r hr
    have hlast : r.2 - 1 < min d.size fresh.size :=
      ((hchanging.positions (r.2 - 1)).mp ⟨r, hr, by omega, by omega⟩).1
    rw [Descriptor.size_of_forget hsame]
    omega
  · rintro fresh₂ S' ⟨m', ys'⟩ ⟨hsame₂, hmoved⟩
    refine ⟨⟨fresh₂, hsame₂.trans hsame, fun d' hd' => ?_⟩, hcopied.inTurn (hwaited.inTurn ?_)⟩
    · rw [Array.getElem?_setIfInBounds_self] at hd'
      split at hd'
      · exact (Option.some_inj.mp hd').symm
      · cases hd'
    · exact hmoved.imp fun _ h => ⟨_, hchanging, h.of_forget hsame⟩
  · rintro _ S' ⟨m', ys'⟩ ⟨f, rfl, hmoved⟩
    exact ⟨f, rfl, hcopied.inTurn (hwaited.inTurn
      (hmoved.imp fun _ h => ⟨_, hchanging, h.of_forget hsame⟩))⟩

/-- A vector `d` has been resized to `fresh`, which has been made for the purpose: what has been
asked of devices then, with the result, the store and the memory. Transfers and copies lie inside
buffers, and the first elements are what they were. -/
structure CarriedOver (v : VectorId) (d fresh : Descriptor) (size : Int) (m m₁ : Memory)
    (moves : List Exchange) (r : Except Fault Unit) (S' : Store) (m' : Memory) : Prop where
  devices : fresh.devices = d.devices
  size : (fresh.size : Int) = size
  new : ∀ b ∈ fresh.buffers, m.buffer b = none
  inside : ∀ q ∈ d.places ++ fresh.places, q.2.Inside m₁
  result : r = unlessFailed () moves
  moves : CarriesOver d fresh (d.contents m) moves
  contents : r = .ok () → ∃ resized, S'.vectors[v]? = some resized ∧ resized.forget = fresh.forget ∧
    (resized.contents m').take (min d.size fresh.size) = (d.contents m).take (min d.size fresh.size)

/-- A vector that has been resized holds its first elements. -/
theorem Becomes.take_contents {S' : Store} {m' : Memory} {size : Int}
    (hv : S.vectors[v]? = some d) {n : Nat} (hsize : n ≤ size.toNat)
    (hlength : n ≤ (d.contents m).length)
    (h : Becomes F ((S.plain m).resizePreserving v size) S' m') :
    ∃ resized, S'.vectors[v]? = some resized ∧
      (resized.contents m').take n = (d.contents m).take n := by
  obtain ⟨-, q, hq, hrep⟩ := h
  have hplain : S.Represents m (S.plain m) := .self _ _
  have hentry := hplain.getElem?_eq_some hv
  rw [Plain.resizePreserving, hentry] at hq
  obtain rfl := Option.some_inj.mp hq
  have hresized := (hrep.getElem? v).symm
  rw [Plain.getElem?_put_self (Array.getElem?_eq_some_iff.mp hentry).1] at hresized
  obtain ⟨resized, hv', hcontents⟩ := Option.map_eq_some_iff.mp hresized
  refine ⟨resized, hv', ?_⟩
  have hshort : n ≤ ((d.contents m).take size.toNat).length := by
    rw [List.length_take]
    omega
  rw [(Prod.mk.inj hcontents).2, List.take_append_of_le_length hshort, List.take_take,
    Nat.min_eq_left hsize]

end Store

section Runs

open Store

variable {σ V : Type} {A : Arithmetic V} {F : Fleet} {h : Handler σ}
  {view : σ → Memory} {m₀ : Memory} {S S' S₀ : Store} {x x' : σ} {v : VectorId} {d : Descriptor}
  {size : Int} {r : Except Fault Unit}

/-- What is asked of devices to make a vector names no buffer that is there. -/
theorem Store.Valid.make_resized_names (meets : h.Meets view (deviceContract A F.suits))
    (hS : S.Valid F (view x)) (hv : S.vectors[v]? = some d) :
    ∀ y ∈ (make (d.resized size)).commands h S x, ∀ b, y.1.Names b → (view x).buffer b = none := by
  intro y hy
  have hcall : y.1 ∈ ((make (d.resized size)).runFrom S).calls h x := by
    rw [← Program.map_exchanges]
    exact List.mem_map_of_mem (List.mem_of_mem_filter hy)
  have hanywhere : (make (d.resized size)).Ensures (deviceContract A F.suits) _ _ S
      ((view x).without (view x)) := make_resized_anywhere (hS.sessions _) (hS.vectors v d hv).2
  exact Program.Ensures.not_names meets (.refl _) hanywhere y.1 hcall

/-- What is asked of devices to carry elements over decides the result. -/
theorem carryOver_run (meets : h.Meets view (deviceContract A F.suits)) (hS : S₀.Valid F m₀)
    (hv : S₀.vectors[v]? = some d) {fresh : Descriptor} (hkept : Kept F [] [] S₀ m₀ S (view x))
    (hvalid : fresh.Valid (view x)) (htype : fresh.type = d.type)
    (hdevices : fresh.devices = d.devices) (hnew : ∀ b ∈ fresh.buffers, m₀.buffer b = none)
    (hrun : ((carryOver v d fresh).runFrom S).run h x = ((r, S'), x')) :
    r = unlessFailed () ((carryOver v d fresh).commands h S x) ∧
      CarriesOver d fresh (d.contents m₀) ((carryOver v d fresh).commands h S x) ∧
      (r = .ok () → ∃ new, new.forget = fresh.forget ∧ ∀ d', S'.vectors[v]? = some d' →
        d' = new) := by
  have hpost :=
    (carryOver_recorded (A := A) hS hv hkept hvalid htype hdevices hnew).of_run_recorded meets
    hrun
  cases r with
  | ok a =>
    obtain ⟨hok, hcarries⟩ := hpost.2.of_nil
    exact ⟨(unlessFailed_of_none hok).symm, hcarries, fun _ => hpost.1⟩
  | error e =>
    obtain ⟨f, rfl, hadded⟩ := hpost
    obtain ⟨hfault, hcarries⟩ := hadded.of_nil
    exact ⟨(unlessFailed_of_some hfault).symm, hcarries, fun hok => by cases hok⟩

/-- Resizing a vector that keeps its first elements makes a new vector, away from all buffers that
are there. If that fails, it is all; otherwise each element that is kept is carried over once, by a
copy on its device or in a run through the host, and nothing else is read or written. -/
theorem Store.Valid.resizePreserving_moves (meets : h.Meets view (deviceContract A F.suits))
    (hS : S.Valid F (view x)) (hv : S.vectors[v]? = some d)
    (hrun : ((resizePreserving v size).runFrom S).run h x = ((r, S'), x')) :
    ∃ made S₁ x₁ making moves, ((make (d.resized size)).runFrom S).run h x = ((made, S₁), x₁) ∧
      (make (d.resized size)).commands h S x = making ∧
      (resizePreserving v size).commands h S x = making ++ moves ∧
      (∀ y ∈ making, ∀ b, y.1.Names b → (view x).buffer b = none) ∧
      (∀ e, made = .error e → r = .error e ∧ S' = S₁ ∧ x' = x₁ ∧ moves = []) ∧
      ∀ fresh, made = .ok fresh → fresh.Untouched making ∧
        CarriedOver v d fresh size (view x) (view x₁) moves r S' (view x') := by
  have hplain : S.Represents (view x) (S.plain (view x)) := .self _ _
  obtain ⟨hvalid, huse⟩ := hS.vectors v d hv
  have hmake := make_ensures (A := A) hS hplain (b := d.resized size) huse (Plain.offers_count _ _)
  have huntouched : (make (d.resized size)).Ensures (deviceContract A F.suits).recorded _ _ S
      (view x, []) :=
    make_resized_untouched (hS.sessions d.session) huse
  have hall := hrun
  rw [runFrom_resizePreserving hv] at hall
  rcases hmakes : ((make (d.resized size)).runFrom S).run h x with ⟨⟨e | fresh, S₁⟩, x₁⟩
  · -- the new vector has not been made
    obtain ⟨hrun', hexchanges⟩ := Task.run_bind_of_error (f := carryOver v d) hmakes
    cases hrun'.symm.trans hall
    refine ⟨_, _, _, _, [], rfl, rfl, ?_, hS.make_resized_names meets hv, ?_,
      fun _ hmade => by cases hmade⟩
    · rw [Task.commands, runFrom_resizePreserving hv, hexchanges, List.append_nil]
      rfl
    · rintro _ ⟨⟩
      exact ⟨rfl, rfl, rfl, rfl⟩
  · -- it has been made, and elements are carried over
    have hmade := hmake.of_run_ok meets hmakes
    obtain ⟨n, host, hextent, hsize, htype, -⟩ := hmade.elements
    obtain ⟨rfl, rfl⟩ : size = n ∧ none = host := by
      simpa [Plain.extent, Descriptor.resized] using hextent
    have htype : fresh.type = d.type := (Except.ok.inj htype).symm
    have hfresh : fresh.Untouched ((make (d.resized size)).commands h S x) :=
      huntouched.of_run_recorded meets hmakes
    rw [Task.run_bind_of_ok hmakes] at hall
    obtain ⟨hresult, hcarries, hnew⟩ :=
      carryOver_run meets hS hv hmade.kept hmade.valid htype hmade.devices
      hmade.new hall
    refine ⟨.ok fresh, S₁, x₁, _, (carryOver v d fresh).commands h S₁ x₁, rfl, rfl, ?_,
      hS.make_resized_names meets hv, fun _ hfailed => (by cases hfailed), ?_⟩
    · rw [Task.commands, runFrom_resizePreserving hv, Task.exchanges_bind_of_ok hmakes,
        deviceSide_append]
      rfl
    rintro _ ⟨⟩
    have hinside : ∀ q ∈ d.places ++ fresh.places, q.2.Inside (view x₁) :=
      List.forall_mem_append.mpr ⟨fun q hq =>
        inside_of_mem_places (hvalid.of_differs hmade.kept.memory) hq,
        fun q hq => inside_of_mem_places hmade.valid hq⟩
    refine ⟨hfresh, hmade.devices, hsize, hmade.new, hinside, hresult, hcarries, ?_⟩
    · rintro rfl
      obtain ⟨new, hsame, hnew⟩ := hnew rfl
      obtain ⟨resized, hv', hcontents⟩ :=
        (resizePreserving_ensures (A := A) hS hplain).of_run_ok meets hrun
        |>.take_contents hv (n := min d.size fresh.size) (by omega)
          (by rw [hvalid.length_contents]; exact Nat.min_le_left ..)
      exact ⟨resized, hv', hnew resized hv' ▸ hsame, hcontents⟩

end Runs

/-- A vector of three elements, one of them on the first device, gets four, all of them on the first
device. The first element is copied, and the two others go through the host. -/
theorem Store.Valid.resizePreserving_moves_sample : ∃ d fresh S₁ x₁ making moves S' x',
    Sample.vectors.1.vectors[0]? = some d ∧
    Sample.run (Store.make (d.resized 4)) Sample.vectors = ((.ok fresh, S₁), x₁) ∧
    Sample.run (Store.resizePreserving 0 4) Sample.vectors = ((.ok (), S'), x') ∧
    (Store.resizePreserving 0 4).commands Machine.Executing.handle Sample.vectors.1
      Sample.vectors.2 = making ++ moves ∧
    (making ++ moves).flatMap (·.1.copies) = [(⟨0, some 1, 0⟩, ⟨0, some 5, 0⟩)] ∧
    ((making ++ moves).flatMap (·.1.loads)).map (·.1) = [⟨1, some 2, 0⟩, ⟨1, some 2, 1⟩] ∧
    ((making ++ moves).flatMap (·.1.stores)).map (·.1) = [⟨0, some 5, 1⟩, ⟨0, some 5, 2⟩] ∧
    fresh.Untouched making ∧
    Store.CarriedOver 0 d fresh 4 Sample.vectors.2.memory x₁.memory moves (.ok ()) S'
      x'.memory := by
  obtain ⟨d, hd⟩ : ∃ d, Sample.vectors.1.vectors[0]? = some d := ⟨_, rfl⟩
  have hresult : (Sample.run (Store.resizePreserving 0 4) Sample.vectors).1.1.toOption =
      some () := by
    decide +kernel
  have hrun := Sample.run_of_result hresult
  have hvalid := Sample.reachable_vectors.valid (Machine.Executing.meets _)
  obtain ⟨made, S₁, x₁, making, moves, hmake, -, hcommands, -, herror, hok⟩ :=
    Store.Valid.resizePreserving_moves (Machine.Executing.meets _) hvalid hd hrun
  cases made with
  | error e => cases (herror e rfl).1
  | ok fresh =>
    obtain ⟨huntouched, hcarried⟩ := hok fresh rfl
    refine ⟨d, fresh, S₁, x₁, making, moves, _, _, hd, hmake, hrun, hcommands, ?_, ?_, ?_,
      huntouched, hcarried⟩ <;>
    · rw [← hcommands]
      decide +kernel

end DistributedVector
