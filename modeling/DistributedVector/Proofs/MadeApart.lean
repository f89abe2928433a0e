import DistributedVector.Proofs.Commands
import DistributedVector.Proofs.Frame
import DistributedVector.Proofs.Reallocation

/-!
# New vectors are made apart

What a program may ask of devices names buffers that are there. So nothing that has been asked
before a buffer is allocated names it, and a vector that has just been made has not been touched,
whatever its session has measured to split it.

## Main definitions

* `Naming` — exchanges that name buffers that are there
* `Descriptor.Untouched` — a vector that no exchange has named
* `Descriptor.resized` — the request for a vector of another size

## Main results

* `Program.Ensures.naming` — programs name buffers that are there
* `Store.make_resized_untouched` — a vector of another size is made and not touched
-/

namespace DistributedVector

/-- What has been asked of devices names buffers that are there. -/
def Naming (m : Memory) (ys : List Exchange) : Prop :=
  ∀ y ∈ ys, ∀ b, y.1.Names b → m.buffer b ≠ none

section Naming

variable {α τ V : Type} {A : Arithmetic V} {suits : DeviceId → KernelSource → Int → Prop}
  {m m' : Memory} {s : τ} {ys : List Exchange}

theorem Naming.mono (h : Naming m ys) (hm : m'.Includes m) : Naming m' ys :=
  fun y hy b hb hnone => h y hy b hb (hm b hnone)

/-- A program names buffers that are there. -/
theorem Program.Ensures.naming {p : Program α} {good : α → Memory → Prop}
    (hp : p.Ensures (deviceContract A suits) good m) (hys : Naming m ys) :
    p.Ensures (deviceContract A suits).recorded
      (fun a x => good a x.1 ∧ Naming x.1 x.2) (m, ys) := by
  induction p generalizing m ys with
  | pure a => exact ⟨hp, hys⟩
  | call c next ih =>
    refine ⟨hp.1, ?_⟩
    rintro r ⟨m', _⟩ ⟨heffect, rfl⟩
    refine ih r (hp.2 r m' heffect) fun y hy b hb => ?_
    -- no command loses a buffer, so that what has been named before is still there
    have hincludes := Memory.Effect.includes hp.1 heffect
    rcases List.mem_append.mp hy with hy | hy
    · exact hys.mono hincludes y hy b hb
    · obtain rfl := List.mem_singleton.mp (List.mem_of_mem_filter hy)
      -- and what this one names had to be there for it to be allowed
      obtain ⟨device, hdevice⟩ := hb.exists_device
      obtain ⟨o, ho, -⟩ := (Memory.Permits.on hp.1 hdevice).own b hb
      intro hnone
      rw [Memory.allocated, hincludes b hnone] at ho
      cases ho

theorem Task.Ensures.naming {t : Task τ α} {good : α → τ → Memory → Prop}
    {bad : Fault → τ → Memory → Prop} (ht : t.Ensures (deviceContract A suits) good bad s m)
    (hys : Naming m ys) :
    t.Ensures (deviceContract A suits).recorded (fun a s' x => good a s' x.1 ∧ Naming x.1 x.2)
      (fun e s' x => bad e s' x.1 ∧ Naming x.1 x.2) s (m, ys) := by
  apply (Program.Ensures.naming ht hys).imp
  rintro ⟨_ | _, s'⟩ x hpost <;> exact hpost

end Naming

/-- No call names a buffer of a vector. -/
def Descriptor.Untouched (d : Descriptor) (ys : List Exchange) : Prop :=
  ∀ y ∈ ys, ∀ b ∈ d.buffers, ¬ y.1.Names b

namespace Vector

variable {V : Type} {A : Arithmetic V} {F : Fleet}
  {suits : DeviceId → KernelSource → Int → Prop} {m : Memory} {ys : List Exchange}

/-- Allocating shards names no buffer. -/
theorem allocate_exchanges {τ : Type} {s : τ} {type : ElementType} {access : Access}
    {lengths : List (DeviceId × Nat)} : (allocate type access lengths : Task τ (List Shard)).Ensures
      .exchanging (fun _ _ ys' => ∃ zs, ys' = ys ++ zs ∧ ∀ y ∈ zs, ∀ b, ¬ y.1.Names b)
      (fun _ _ _ => True) s ys := by
  induction lengths generalizing ys s with
  | nil => exact ⟨[], (List.append_nil _).symm, List.forall_mem_nil _⟩
  | cons head rest ih =>
    obtain ⟨device, n⟩ := head
    simp only [allocate, Task.ensures_bind, Task.ensures_ite, Task.ensures_pure]
    refine ⟨fun _ => ih, fun _ => ?_⟩
    rw [map_eq_pure_bind, Task.ensures_bind, ensures_issue]
    refine ⟨trivial, ?_⟩
    rintro r _ rfl
    refine ⟨?_, fun _ _ => trivial⟩
    rintro b rfl
    rw [Task.ensures_pure]
    refine ih.imp_ok ?_
    rintro _ _ _ ⟨zs, rfl, hzs⟩
    exact ⟨_, List.append_assoc .., List.forall_mem_append.mpr ⟨fun y hy => by
      obtain rfl := List.mem_singleton.mp (List.mem_of_mem_filter hy)
      exact fun _ => id, hzs⟩⟩

variable {r : VectorRequest}
  {partition : Int → List DeviceId → Task Session (List Int)} {s : Session}

/-- A vector without host data is made and not touched. -/
theorem create_untouched (hp : Partitions A F partition) (hs : s.Sound F)
    (hdevices : F.inUse r.devices) (hhost : r.host = none) (hys : Naming m ys) :
    (create partition r).Ensures (deviceContract A F.suits).recorded
      (fun d _ x => d.Untouched x.2) (fun _ _ _ => True) s (m, ys) := by
  simp only [create, Task.ensures_bind, ensures_orFault]
  refine ⟨fun _ _ => ⟨fun type _ => ?_, fun _ _ => trivial⟩, fun _ _ => trivial⟩
  refine ((boundariesFor_ensures hp hs hdevices).naming hys).imp ?_ fun _ _ _ _ => trivial
  rintro part s₁ ⟨m₁, ys₁⟩ ⟨-, hys₁⟩
  refine (allocate_ensures.recorded allocate_exchanges).imp ?_ fun _ _ _ _ => trivial
  rintro shards s₂ ⟨m₂, _⟩ ⟨⟨-, -, -, hnew, -⟩, zs, rfl, hzs⟩
  rw [hhost]
  intro y hy b hb hnames
  -- before the allocation the buffers were not there
  rcases List.mem_append.mp hy with hy | hy
  · exact hys₁ y hy b hnames (hnew b hb)
  · exact hzs y hy b hnames

end Vector

/-- The request for a vector of another size in the place of a vector. -/
def Descriptor.resized (d : Descriptor) (size : Int) : Blueprint :=
  ⟨d.devices, .count size, none, .exact d.type, d.access, d.session, none⟩

namespace Store

open DistributedVector.Vector

variable {V : Type} {A : Arithmetic V} {F : Fleet} {m : Memory} {S : Store} {v : VectorId}
  {d fresh : Descriptor} {size : Int}

/-- Making a vector of another size is making it in its session. -/
theorem make_resized_ensures {μ : Type} {K : Contract μ} {z : μ} {good : Descriptor → μ → Prop}
    (hcreate : ∀ s, S.sessions[d.session]? = some s →
      (create (Session.partition d.session)
        ⟨d.devices, size, none, .exact d.type, d.access, d.session, none⟩).Ensures K
        (fun fresh _ z' => good fresh z') (fun _ _ _ => True) s z) :
    (make (d.resized size)).Ensures K (fun fresh _ z' => good fresh z')
    (fun _ _ _ => True) S z := by
  rw [make, makeBy, Task.ensures_ite]
  refine ⟨fun _ => ?_, fun _ => ?_⟩
  · rw [Task.ensures_bind, Task.ensures_throw]
    trivial
  rw [Task.ensures_bind]
  have hextent : resolveExtent (d.resized size) =
      (if size < 0 then do throw (.vector (.negativeSize size)); return (size, none)
        else return (size, none)) := rfl
  simp only [hextent, Task.ensures_ite, Task.ensures_bind, Task.ensures_throw, Task.ensures_pure,
    onSession_ensures]
  exact ⟨fun _ => trivial, fun _ => ⟨hcreate, fun _ => trivial⟩⟩

/-- A vector of another size may be made whichever buffers there are, and is not touched. -/
theorem make_resized_untouched (hS : ∀ s, S.sessions[d.session]? = some s → s.Sound F)
    (huse : F.inUse d.devices) : (make (d.resized size)).Ensures (deviceContract A F.suits).recorded
      (fun fresh _ x => fresh.Untouched x.2) (fun _ _ _ => True) S (m, []) :=
  make_resized_ensures fun s hs =>
    create_untouched Session.partition_ensures (hS s hs) huse rfl (List.forall_mem_nil _)

theorem make_resized_anywhere (hS : ∀ s, S.sessions[d.session]? = some s → s.Sound F)
    (huse : F.inUse d.devices) : (make (d.resized size)).Ensures (deviceContract A F.suits)
      (fun _ _ _ => True) (fun _ _ _ => True) S m :=
  make_resized_ensures fun s hs => (create_ensures Session.partition_ensures (hS s hs) huse).imp
    (fun _ _ _ _ => trivial) fun _ _ _ _ => trivial

end Store

end DistributedVector
