import Mathlib.Data.List.Basic

/-!
# Straight-line BPF programs

The few instructions that a program needs to read its context: loads from the context,
moves of a constant, and the exit, which returns register zero. A program that touches
anything else, or falls off its end, has no run.
-/
namespace MonitoringTools.BpfMachine

structure Insn where
  code : UInt8
  dstReg : ℕ
  srcReg : ℕ
  off : Int16
  imm : Int32
  deriving DecidableEq, Repr

/-- `BPF_LDX | BPF_MEM | BPF_DW`. -/
def ldxMemDw : UInt8 := 0x79

/-- `BPF_ALU64 | BPF_MOV | BPF_K`. -/
def alu64MovK : UInt8 := 0xb7

/-- `BPF_JMP | BPF_EXIT`. -/
def jmpExit : UInt8 := 0x95

/-- A number, or the address of the context. -/
inductive Value where
  | scalar (v : UInt64)
  | context
  deriving DecidableEq, Repr

structure Machine where
  regs : ℕ → Option Value
  reads : List Int16

/-- The context is in register one. -/
def Machine.start : Machine := ⟨Function.update (fun _ => none) 1 (some .context), []⟩

/-- Run a program on a context; the number is what it returns. -/
def run (slot : Int16 → UInt64) : List Insn → Machine → Option (UInt64 × Machine)
  | [], _ => none
  | i :: rest, m =>
      if i.code = ldxMemDw then
        match m.regs i.srcReg with
        | some .context =>
            run slot rest
              ⟨Function.update m.regs i.dstReg (some (.scalar (slot i.off))), m.reads ++ [i.off]⟩
        | _ => none
      else if i.code = alu64MovK then
        run slot rest
          {m with regs := Function.update m.regs i.dstReg (some (.scalar i.imm.toInt64.toUInt64))}
      else if i.code = jmpExit then
        match m.regs 0 with
        | some (.scalar v) => some (v, m)
        | _ => none
      else none

/-- The offsets that a program reads. -/
def readsOf (program : List Insn) : Option (List Int16) :=
  (run (fun _ => 0) program .start).map fun r => r.2.reads

def load (dst src : ℕ) (off : Int16) : Insn := ⟨ldxMemDw, dst, src, off, 0⟩

/-- Loads change their register alone, and read what they say. -/
theorem run_loads (slot : Int16 → UInt64) {dst src : ℕ} (hne : src ≠ dst) (offs : List Int16)
    (rest : List Insn) {m : Machine} (hm : m.regs src = some .context) :
    ∃ m', run slot (offs.map (load dst src) ++ rest) m = run slot rest m' ∧
      m'.reads = m.reads ++ offs ∧ ∀ r, r ≠ dst → m'.regs r = m.regs r := by
  induction offs generalizing m with
  | nil => exact ⟨m, rfl, (List.append_nil _).symm, fun _ _ => rfl⟩
  | cons off offs ih =>
      let next : Machine :=
        ⟨Function.update m.regs dst (some (.scalar (slot off))), m.reads ++ [off]⟩
      have hkept : ∀ r, r ≠ dst → next.regs r = m.regs r := fun r hr =>
        Function.update_of_ne hr _ _
      obtain ⟨m', hrun, hreads, hregs⟩ := @ih next ((hkept src hne).trans hm)
      refine ⟨m', ?_, ?_, fun r hr => (hregs r hr).trans (hkept r hr)⟩
      · rw [← hrun, List.map_cons, List.cons_append, run]
        simp only [load, if_true, hm]
        rfl
      · rw [hreads, List.append_assoc]
        rfl

end MonitoringTools.BpfMachine
