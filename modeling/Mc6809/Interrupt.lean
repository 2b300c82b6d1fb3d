/-
  Interrupt sources: the three input lines, the three software interrupts, and the
  addresses of their vectors. A vector holds the handler's address, high byte first.
-/

namespace Mc6809

/-- The interrupts that a line requests, highest priority first. -/
inductive Interrupt where
  | nmi | firq | irq
deriving DecidableEq, Repr

/-- The interrupts that an instruction requests. -/
inductive SoftwareInterrupt where
  | swi | swi2 | swi3
deriving DecidableEq, Repr

/-- Where the address of the first instruction after a reset is kept. -/
def resetVector : UInt16 := 0xFFFE

def Interrupt.vector : Interrupt → UInt16
  | .nmi => 0xFFFC
  | .firq => 0xFFF6
  | .irq => 0xFFF8

def SoftwareInterrupt.vector : SoftwareInterrupt → UInt16
  | .swi => 0xFFFA
  | .swi2 => 0xFFF4
  | .swi3 => 0xFFF2

/-- The interrupt input lines. A line stays asserted until its driver releases it, except
that servicing NMI releases NMI. -/
structure InterruptLines where
  nmi : Bool := false
  firq : Bool := false
  irq : Bool := false
deriving DecidableEq, Repr, Inhabited

namespace InterruptLines

/-- Whether any line is asserted, masked or not. -/
def any (lines : InterruptLines) : Bool := lines.nmi || lines.firq || lines.irq

/-- Whether the line of an interrupt is asserted. -/
def get (lines : InterruptLines) : Interrupt → Bool
  | .nmi => lines.nmi
  | .firq => lines.firq
  | .irq => lines.irq

/-- Asserts or releases one line. -/
def set (lines : InterruptLines) (interrupt : Interrupt) (asserted : Bool) : InterruptLines :=
  match interrupt with
  | .nmi => { lines with nmi := asserted }
  | .firq => { lines with firq := asserted }
  | .irq => { lines with irq := asserted }

end InterruptLines

end Mc6809
