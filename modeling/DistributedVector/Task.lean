import DistributedVector.Device.Program
import DistributedVector.Fault

/-!
# Tasks

A task works on a state, makes calls, and may fail. The state and the calls made before a failure
remain: a failed task leaves the state as it was when the failure arose.

## Main definitions

* `Task` — computations with state, calls and faults
* `Task.zoom` — a task on a part of the state
* `issue` — a device command as a task

## Main results

* `Task.runFrom_bind` — a sequence runs as its parts, up to the first fault
-/

namespace DistributedVector

/-- Computations on a state `σ` that make calls and may fail. -/
abbrev Task (σ : Type) := ExceptT Fault (StateT σ Program)

namespace Task

variable {σ τ α β : Type}

/-- Runs a task from a state: the result or the fault, and the state after it. -/
def runFrom (t : Task σ α) (s : σ) : Program (Except Fault α × σ) := t.run.run s

/-- The task that runs as the given function of the state. -/
def mk (f : σ → Program (Except Fault α × σ)) : Task σ α := ExceptT.mk (StateT.mk f)

/-- A program as a task. -/
def perform (p : Program α) : Task σ α := mk fun s => do return (.ok (← p), s)

/-- A result that may be a fault. -/
def ofExcept (r : Except Fault α) : Task σ α := mk fun s => pure (r, s)

/-- A task on a part of the state: `view` takes the part out, `update` puts it back, also after a
fault. -/
def zoom (view : τ → σ) (update : σ → τ → τ) (t : Task σ α) : Task τ α :=
  mk fun s => do
    let (r, part) ← t.runFrom (view s)
    return (r, update part s)

/-- Runs a task on a state of its own, which is returned with the result. -/
def runOn (part : σ) (t : Task σ α) : Task τ (α × σ) :=
  mk fun s => do
    let (r, part) ← t.runFrom part
    return (r.map (·, part), s)

@[simp] theorem runFrom_mk (f : σ → Program (Except Fault α × σ)) (s : σ) :
    (mk f).runFrom s = f s := rfl

@[simp] theorem runFrom_pure (a : α) (s : σ) :
    (pure a : Task σ α).runFrom s = pure (.ok a, s) := rfl

@[simp] theorem runFrom_throw (e : Fault) (s : σ) :
    (throw e : Task σ α).runFrom s = pure (.error e, s) := rfl

@[simp] theorem runFrom_get (s : σ) : (get : Task σ σ).runFrom s = pure (.ok s, s) := rfl

@[simp] theorem runFrom_set (new s : σ) :
    (set new : Task σ PUnit).runFrom s = pure (.ok ⟨⟩, new) := rfl

@[simp] theorem runFrom_modify (f : σ → σ) (s : σ) :
    (modify f : Task σ PUnit).runFrom s = pure (.ok ⟨⟩, f s) := rfl

@[simp] theorem runFrom_perform (p : Program α) (s : σ) :
    (perform p).runFrom s = p >>= fun a => pure (.ok a, s) := rfl

@[simp] theorem runFrom_ofExcept (r : Except Fault α) (s : σ) :
    (ofExcept r).runFrom s = pure (r, s) := rfl

/-- A task on a part of the state changes that part only, whether it fails or not. -/
@[simp] theorem runFrom_zoom (view : τ → σ) (update : σ → τ → τ) (t : Task σ α) (s : τ) :
    (t.zoom view update).runFrom s =
      t.runFrom (view s) >>= fun r => pure (r.1, update r.2 s) := rfl

/-- A sequence runs as its parts, one after the other; a fault of the first part ends it. -/
theorem runFrom_bind (t : Task σ α) (f : α → Task σ β) (s : σ) :
    (t >>= f).runFrom s = t.runFrom s >>= fun r =>
      match r.1 with
      | .ok a => (f a).runFrom r.2
      | .error e => pure (.error e, r.2) := by
  refine congrArg (t.runFrom s >>= ·) (funext fun r => ?_)
  obtain ⟨_ | _, s⟩ := r <;> rfl

/-- A part that returns without asking for anything is followed by the rest. -/
theorem runFrom_bind_of_ok {t : Task σ α} {f : α → Task σ β} {s s' : σ} {a : α}
    (ht : t.runFrom s = pure (.ok a, s')) : (t >>= f).runFrom s = (f a).runFrom s' := by
  rw [runFrom_bind, ht, Program.pure_bind]

end Task

/-- A device command as a task: its fault is the task's fault. -/
def issue {σ α : Type} (p : Program (Except DeviceFault α)) : Task σ α :=
  Task.mk fun s => do return ((← p).mapError .device, s)

/-- Adds a record to the log. -/
def report {σ : Type} (record : LogRecord) : Task σ Unit :=
  Task.perform (Program.ask (.report record))

/-- Passes on a result of the vector layer. -/
def orFault {σ α ε : Type} (f : ε → Fault) (r : Except ε α) : Task σ α :=
  Task.ofExcept (r.mapError f)

end DistributedVector
