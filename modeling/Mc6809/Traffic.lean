/-
  Bus traffic: what the processor asks of the world outside it while it executes one
  step, as a tree of requests. A read waits for a byte and continues with it. A request
  that the bus refuses ends the tree, so what follows a request may assume that the bus
  accepted it. The tree says nothing about what answers: buffers, handlers and plain
  arrays are different interpretations of the same tree.

  `Traffic` is a lawful monad; sequencing grafts the second tree onto the leaves of the
  first.
-/
import Mc6809.Event

namespace Mc6809

/-- The requests of a computation that ends with a value of type `α`. -/
inductive Traffic (α : Type) where
  /-- Nothing more is asked. -/
  | done (result : α)
  /-- Read a byte and continue with it. -/
  | read (address : UInt16) (next : UInt8 → Traffic α)
  /-- Write a byte. -/
  | write (address : UInt16) (value : UInt8) (next : Traffic α)
  /-- Release the NMI line. -/
  | releaseNmi (next : Traffic α)
  /-- Report an event. -/
  | report (event : Event) (next : Traffic α)

namespace Traffic

variable {α β γ : Type}

/-- Continues at every leaf. -/
def bind : Traffic α → (α → Traffic β) → Traffic β
  | done result, f => f result
  | read address next, f => read address fun value => (next value).bind f
  | write address value next, f => write address value (next.bind f)
  | releaseNmi next, f => releaseNmi (next.bind f)
  | report event next, f => report event (next.bind f)

instance : Monad Traffic where
  pure := done
  bind := bind

@[simp] theorem done_bind (a : α) (f : α → Traffic β) : done a >>= f = f a := rfl

@[simp] theorem read_bind (address : UInt16) (next : UInt8 → Traffic α) (f : α → Traffic β) :
    read address next >>= f = read address fun value => next value >>= f := rfl

@[simp] theorem write_bind (address : UInt16) (value : UInt8) (next : Traffic α)
    (f : α → Traffic β) : write address value next >>= f = write address value (next >>= f) := rfl

@[simp] theorem releaseNmi_bind (next : Traffic α) (f : α → Traffic β) :
    releaseNmi next >>= f = releaseNmi (next >>= f) := rfl

@[simp] theorem report_bind (event : Event) (next : Traffic α) (f : α → Traffic β) :
    report event next >>= f = report event (next >>= f) := rfl

theorem bind_done (t : Traffic α) : t >>= done = t := by
  induction t with
  | done => rfl
  | read address next ih => exact congrArg (read address) (funext ih)
  | write address value next ih => exact congrArg (write address value) ih
  | releaseNmi next ih => exact congrArg releaseNmi ih
  | report event next ih => exact congrArg (report event) ih

theorem bind_bind (t : Traffic α) (f : α → Traffic β) (g : β → Traffic γ) :
    t >>= f >>= g = t >>= fun a => f a >>= g := by
  induction t with
  | done => rfl
  | read address next ih => exact congrArg (read address) (funext ih)
  | write address value next ih => exact congrArg (write address value) ih
  | releaseNmi next ih => exact congrArg releaseNmi ih
  | report event next ih => exact congrArg (report event) ih

instance : LawfulMonad Traffic :=
  LawfulMonad.mk' Traffic bind_done (fun _ _ => rfl) bind_bind

end Traffic

end Mc6809
