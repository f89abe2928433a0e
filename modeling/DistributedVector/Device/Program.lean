import DistributedVector.Device.Call

/-!
# Programs

A program is a computation that makes calls and goes on with their replies. What the calls do is
left open: a handler with a state of its own answers them. The same program can run on devices that
execute at once, on devices with queues, and on devices that fail.

## Main definitions

* `Program` — computations that make calls
* `Handler`, `Program.run` — a way to answer calls, and running a program on it

## Main results

* `Program.run_bind` — a sequence runs as its parts, one after the other
-/

namespace DistributedVector

/-- A computation that makes calls and goes on with their replies. -/
inductive Program (α : Type) where
  | pure (a : α)
  | call (c : Call) (next : c.Reply → Program α)

namespace Program

variable {α β γ : Type}

/-- Continues a program with the value it returns. -/
def bind : Program α → (α → Program β) → Program β
  | .pure a, f => f a
  | .call c next, f => .call c fun r => (next r).bind f

instance : Monad Program where
  pure := .pure
  bind := bind

/-- The program that makes one call and returns its reply. -/
def ask (c : Call) : Program c.Reply := .call c .pure

@[simp] theorem pure_bind (a : α) (f : α → Program β) : (Pure.pure a : Program α) >>= f = f a := rfl

@[simp] theorem bind_pure (p : Program α) : p >>= Pure.pure = p := by
  induction p with
  | pure a => rfl
  | call c next ih => exact congrArg (call c) (funext ih)

theorem bind_assoc (p : Program α) (f : α → Program β) (g : β → Program γ) :
    p >>= f >>= g = p >>= fun a => f a >>= g := by
  induction p with
  | pure a => rfl
  | call c next ih => exact congrArg (call c) (funext ih)

instance : LawfulMonad Program :=
  LawfulMonad.mk' Program bind_pure pure_bind bind_assoc

end Program

/-- A way to answer calls: the reply and the state after it. -/
abbrev Handler (σ : Type) := (c : Call) → σ → c.Reply × σ

namespace Program

variable {α β σ : Type}

/-- Runs a program on a handler. -/
def run (h : Handler σ) : Program α → σ → α × σ
  | .pure a, s => (a, s)
  | .call c next, s =>
    let (r, s) := h c s
    (next r).run h s

@[simp] theorem run_pure (h : Handler σ) (a : α) (s : σ) :
    (Pure.pure a : Program α).run h s = (a, s) := rfl

@[simp] theorem run_ask (h : Handler σ) (c : Call) (s : σ) : (ask c).run h s = h c s := rfl

/-- A sequence runs as its parts, one after the other. -/
@[simp] theorem run_bind (h : Handler σ) (p : Program α) (f : α → Program β) (s : σ) :
    (p >>= f).run h s = (f (p.run h s).1).run h (p.run h s).2 := by
  induction p generalizing s with
  | pure a => rfl
  | call c next ih => exact ih _ _

end Program

end DistributedVector
