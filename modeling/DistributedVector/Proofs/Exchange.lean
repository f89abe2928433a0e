import DistributedVector.Proofs.Contents
import DistributedVector.Proofs.Devices

/-!
# Calls and their replies

What a run has asked for and what it has been told: its exchanges. With devices that leave their
memory alone when a command fails, they tell how far a run has come, and a judgement can speak of
the memory and the exchanges together.

## Main definitions

* `Exchange`, `Program.exchanges` — calls with their replies
* `Contract.recording` — a record of the exchanges, whatever they are
* `Handler.Gentle` — commands that fail change nothing
* `gentleContract` — the contract of such devices, with the exchanges so far

## Main results

* `Program.Ensures.of_recording` — what a judgement says about the exchanges of a run
* `Program.Ensures.of_exchanges` — what a judgement says about a run on gentle devices
* `ensures_copy_gently`, `ensures_launch_gently` — the rules of copies and launches
-/

namespace DistributedVector

/-- A call with its reply. -/
abbrev Exchange := (c : Call) × c.Reply

namespace Exchange

/-- The fault of a device command that has failed. -/
def fault? : Exchange → Option DeviceFault
  | ⟨.allocate .., .error e⟩ | ⟨.write .., .error e⟩ | ⟨.read .., .error e⟩ | ⟨.copy .., .error e⟩
  | ⟨.build .., .error e⟩ | ⟨.launch .., .error e⟩ | ⟨.wait .., .error e⟩
  | ⟨.synchronize .., .error e⟩ => some e
  | _ => none

/-- The event of a copy or a launch that has been accepted. -/
def event? : Exchange → Option Event
  | ⟨.copy .., .ok e⟩ | ⟨.launch .., .ok e⟩ => some e
  | _ => none

theorem fault?_of_event? {y : Exchange} {e : Event} (h : y.event? = some e) : y.fault? = none := by
  obtain ⟨c, r⟩ := y
  cases c with
  | copy | launch =>
    cases r with
    | error f => cases h
    | ok e' => rfl
  | _ => cases h

end Exchange

/-- A copy or a launch. -/
def Call.Stores : Call → Prop
  | .copy .. | .launch .. => True
  | _ => False

/-- A copy or a launch whose target is the buffer of a shard. -/
def Call.StoresInto (s : Shard) : Call → Prop
  | .copy device _ target _ _ _ => device = s.device ∧ target = s.buffer
  | .launch device _ _ _ args => device = s.device ∧ args[1]? = some (.buffer s.buffer)
  | _ => False

theorem Call.StoresInto.stores {s : Shard} {c : Call} (h : c.StoresInto s) : c.Stores := by
  cases c with
  | copy | launch => trivial
  | _ => exact h

/-- The contract that every handler meets, with a record of the exchanges. -/
def Contract.recording : Contract (List Exchange) where
  allows _ _ := True
  effect c ys r ys' := ys' = ys ++ [⟨c, r⟩]

namespace Program

variable {α β σ : Type} {h : Handler σ} {s : σ}

/-- The calls that a run makes, with their replies. -/
def exchanges (h : Handler σ) : Program α → σ → List Exchange
  | .pure _, _ => []
  | .call c next, s => ⟨c, (h c s).1⟩ :: (next (h c s).1).exchanges h (h c s).2

theorem map_exchanges {p : Program α} : (p.exchanges h s).map (·.1) = p.calls h s := by
  induction p generalizing s with
  | pure a => rfl
  | call c next ih => exact congrArg (c :: ·) (ih _)

/-- The exchanges of a sequence are those of its parts, one after the other. -/
@[simp] theorem exchanges_bind {p : Program α} {f : α → Program β} :
    (p >>= f).exchanges h s = p.exchanges h s ++ (f (p.run h s).1).exchanges h (p.run h s).2 := by
  induction p generalizing s with
  | pure a => rfl
  | call c next ih => exact congrArg (⟨c, (h c s).1⟩ :: ·) (ih _)

@[simp] theorem exchanges_pure {a : α} : (Pure.pure a : Program α).exchanges h s = [] := rfl

/-- What is ensured of the record holds of the exchanges of a run. -/
theorem Ensures.of_recording {p : Program α} {good : α → List Exchange → Prop} {ys : List Exchange}
    (hp : p.Ensures .recording good ys) : good (p.run h s).1 (ys ++ p.exchanges h s) := by
  induction p generalizing s ys with
  | pure a => rwa [exchanges, List.append_nil]
  | call c next ih =>
    rw [exchanges, List.append_cons]
    exact ih _ (hp.2 _ _ rfl)

end Program

section Tasks

variable {α β σ τ : Type} {h : Handler σ} {x x' : σ} {s s' : τ}

/-- Behind a part that returns come the exchanges of the rest. -/
theorem Task.exchanges_bind_of_ok {t : Task τ α} {f : α → Task τ β} {a : α}
    (ht : (t.runFrom s).run h x = ((.ok a, s'), x')) :
    ((t >>= f).runFrom s).exchanges h x =
      (t.runFrom s).exchanges h x ++ ((f a).runFrom s').exchanges h x' := by
  rw [runFrom_bind, Program.exchanges_bind, ht]

/-- A part that fails ends a sequence. -/
theorem Task.run_bind_of_error {t : Task τ α} {f : α → Task τ β} {e : Fault}
    (ht : (t.runFrom s).run h x = ((.error e, s'), x')) :
    ((t >>= f).runFrom s).run h x = ((.error e, s'), x') ∧
      ((t >>= f).runFrom s).exchanges h x = (t.runFrom s).exchanges h x := by
  rw [runFrom_bind, Program.run_bind, Program.exchanges_bind, ht]
  exact ⟨rfl, List.append_nil _⟩

end Tasks

/-- Device commands that fail change nothing. -/
def Handler.Gentle {σ μ : Type} (h : Handler σ) (view : σ → μ) : Prop :=
  ∀ c s, Exchange.fault? ⟨c, (h c s).1⟩ ≠ none → view (h c s).2 = view s

variable {V : Type}

/-- The contract of devices that leave their memory alone when a command fails, with the exchanges
so far. -/
def gentleContract (A : Arithmetic V) (suits : DeviceId → KernelSource → Int → Prop) :
    Contract (Memory × List Exchange) where
  allows c m := m.1.Permits suits c
  effect c m r m' := m.1.Effect A c r m'.1 ∧ (Exchange.fault? ⟨c, r⟩ ≠ none → m'.1 = m.1) ∧
    m'.2 = m.2 ++ [⟨c, r⟩]

section Runs

variable {α σ τ : Type} {A : Arithmetic V} {suits : DeviceId → KernelSource → Int → Prop}
  {h : Handler σ} {view : σ → Memory} {x : σ} {ys : List Exchange}

/-- What is ensured of memory and exchanges holds of a run on gentle devices and its exchanges. -/
theorem Program.Ensures.of_exchanges (meets : h.Meets view (deviceContract A suits))
    (gentle : h.Gentle view) {p : Program α} {good : α → Memory × List Exchange → Prop}
    (hp : p.Ensures (gentleContract A suits) good (view x, ys)) :
    good (p.run h x).1 (view (p.run h x).2, ys ++ p.exchanges h x) := by
  induction p generalizing x ys with
  | pure a => rwa [exchanges, List.append_nil]
  | call c next ih =>
    rw [exchanges, List.append_cons]
    exact ih _ (hp.2 _ (view (h c x).2, _) ⟨meets c x hp.1, gentle c x, rfl⟩)

end Runs

section Rules

variable {A : Arithmetic V} {suits : DeviceId → KernelSource → Int → Prop} {τ : Type} {s : τ}
  {m : Memory} {ys : List Exchange} {bad : Fault → τ → Memory × List Exchange → Prop}
  {good : Event → τ → Memory × List Exchange → Prop}

/-- A copy that fails changes nothing. -/
theorem ensures_copy_gently {device : DeviceId} {source target : Option BufferId} {count : Nat}
    {sourceOffset targetOffset : Int} {id id' : BufferId} {buf buf' : Buffer}
    (hsource : m.Span device source sourceOffset count id buf)
    (htarget : m.Span device target targetOffset count id' buf') (hne : id ≠ id')
    (hgood : ∀ e values, values.size = buf'.data.size → values.toList =
      overlay targetOffset.toNat ((buf.data.toList.drop sourceOffset.toNat).take count)
        buf'.data.toList →
      good e s (m.setBuffer id' { buf' with data := values },
        ys ++ [⟨.copy device source target count sourceOffset targetOffset, .ok e⟩]))
    (hbad : ∀ e, bad (.device e) s
      (m, ys ++ [⟨.copy device source target count sourceOffset targetOffset, .error e⟩])) :
    (issue (Program.ask (.copy device source target count sourceOffset targetOffset)) :
      Task τ Event).Ensures (gentleContract A suits) good bad s (m, ys) := by
  rw [ensures_issue, Program.ensures_ask]
  refine ⟨⟨id, buf, id', buf', hsource, htarget, hne⟩, ?_⟩
  rintro r ⟨m', ys'⟩ ⟨h, hfailed, rfl : ys' = ys ++ [_]⟩
  obtain ⟨values, hsize, hm', hvalues⟩ :=
    h id buf hsource.named hsource.present id' buf' htarget.named htarget.present
  constructor
  · rintro e rfl
    obtain rfl : m' = _ := hm'
    exact hgood e values hsize (hvalues e rfl)
  · rintro e rfl
    obtain rfl : m' = m := hfailed (Option.some_ne_none e)
    exact hbad e

/-- A launch that fails changes nothing. -/
theorem ensures_launch_gently {device : DeviceId} {source : KernelSource} {grid workgroup : Int}
    {target : BufferId} {buf : Buffer} {rest : List Argument}
    (hsuits : suits device source workgroup) (hrun : m.Launchable device source target buf rest)
    {args : List Argument} (hargs : args =
      .scalar (.element .uint64) (.int buf.data.size) :: .buffer (some target) :: rest)
    (hgood : ∀ e values, values.size = buf.data.size →
      m.Computes A source buf.type buf.data.size rest values.toList →
      good e s (m.setBuffer target { buf with data := values },
        ys ++ [⟨.launch device source grid workgroup args, .ok e⟩]))
    (hbad : ∀ e, bad (.device e) s (m, ys ++
      [⟨.launch device source grid workgroup args, .error e⟩])) :
    (issue (Program.ask (.launch device source grid workgroup args)) : Task τ Event).Ensures
      (gentleContract A suits) good bad s (m, ys) := by
  subst hargs
  rw [ensures_issue, Program.ensures_ask]
  refine ⟨⟨hsuits, target, buf, rest, rfl, hrun⟩, ?_⟩
  rintro r ⟨m', ys'⟩ ⟨h, hfailed, rfl : ys' = ys ++ [_]⟩
  obtain ⟨values, hsize, hm', hvalues⟩ := h target buf rfl hrun.present
  constructor
  · rintro e rfl
    obtain rfl : m' = _ := hm'
    exact hgood e values hsize (hvalues e rfl)
  · rintro e rfl
    obtain rfl : m' = m := hfailed (Option.some_ne_none e)
    exact hbad e

end Rules

end DistributedVector
