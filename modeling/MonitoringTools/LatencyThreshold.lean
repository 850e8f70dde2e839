import MonitoringTools.CNumbers
import MonitoringTools.IoslowerProbes
import MonitoringTools.NfsslowerProbes
import MonitoringTools.SmbslowerProbes

/-!
# The latency option of the slow tracers

`-m` takes milliseconds. smbslower and nfsslower turn them into nanoseconds
and compare those; ioslower turns them into microseconds and compares the
latency rounded down to microseconds. All of them multiply in 64 bits.
-/
namespace MonitoringTools.LatencyThreshold
open BpfHelpers DiagEvents CStrings CNumbers

inductive Tool where
  | smbslower | nfsslower | ioslower
  deriving DecidableEq, Repr

/-- The `-m` branch of `parse_arg` in smbslower and nfsslower; `errno` leads to
the usage error. -/
def minLatMs (arg : CString) : Option UInt64 :=
  let parsed := strtol 10 arg
  if parsed.erange then none else some (UInt64.ofInt parsed.value)

/-- What both write to `rodata->min_lat_ns`. -/
def minLatNs (minLatMs : UInt64) : UInt64 := minLatMs * 1000 * 1000

/-- The `-m` branch of `parse_arg` in ioslower. The signed product wraps. -/
def minUs (arg : CString) : UInt64 := (Int64.ofInt (strtol 10 arg).value * 1000).toUInt64

/-- What a tool compares latencies with, unless it rejects the argument. -/
def Tool.setting : Tool → CString → Option UInt64
  | .smbslower, arg | .nfsslower, arg => (minLatMs arg).map minLatNs
  | .ioslower, arg => some (minUs arg)

inductive Operation where
  | smbslower (wakeup : Int32) (c : DiagContext) (ring : Fill)
      (started : SmbslowerProbes.SmbPartialEvent)
  | nfsslower (wakeup : Int32) (c : DiagContext) (ring : Fill) (task : NfsslowerProbes.RpcTask)
      (started : NfsslowerProbes.NfsPartialEvent)
  | ioslower (m : IoslowerProbes.Maps) (c : ProbeContext) (st : IoslowerProbes.Start) (ret : Int32)

namespace Operation

def tool : Operation → Tool
  | .smbslower .. => .smbslower
  | .nfsslower .. => .nfsslower
  | .ioslower .. => .ioslower

def room : Operation → Bool
  | .smbslower _ _ ring _ | .nfsslower _ _ ring _ _ => ring.room
  | .ioslower _ c _ _ => c.ringRoom

def latency : Operation → UInt64
  | .smbslower _ c _ started => c.ktime - started.startNs
  | .nfsslower _ c _ _ started => c.ktime - started.startNs
  | .ioslower _ c st _ => c.ktime - st.ts

/-- The operation is submitted under a setting. -/
def passes (setting : UInt64) : Operation → Bool
  | .smbslower wakeup c ring started =>
      (SmbslowerProbes.completion ⟨setting, wakeup⟩ c ring started).isSome
  | .nfsslower wakeup c ring task started =>
      (NfsslowerProbes.completion ⟨setting, wakeup⟩ c ring task started).isSome
  | .ioslower m c st ret =>
      (IoslowerProbes.emitEvent {m with thresholdConfig := setting} c st (c.ktime - st.ts) ret).events
        ≠ m.events

end Operation

/-- The least latency that passes, in nanoseconds. -/
def Tool.least : Tool → UInt64 → ℕ
  | .smbslower, setting | .nfsslower, setting => setting.toNat
  | .ioslower, setting => setting.toNat * 1000

theorem isSome_iff_le {submission : Option Submission} {event : Event} {setting latency : UInt64}
    (h : submission.map Submission.event = if setting ≤ latency then some event else none) :
    submission.isSome = true ↔ setting.toNat ≤ latency.toNat := by
  have hsome := congrArg Option.isSome h
  rw [Option.isSome_map] at hsome
  rw [hsome, ← UInt64.le_iff_toNat_le]
  by_cases hle : setting ≤ latency
  · rw [if_pos hle]
    exact iff_of_true rfl hle
  · rw [if_neg hle]
    exact iff_of_false Bool.false_ne_true hle

theorem passes_iff_least {op : Operation} (hroom : op.room = true) (setting : UInt64) :
    op.passes setting = true ↔ op.tool.least setting ≤ op.latency.toNat := by
  cases op with
  | smbslower wakeup c ring started =>
      exact isSome_iff_le (SmbslowerProbes.completion_event hroom)
  | nfsslower wakeup c ring task started =>
      exact isSome_iff_le (NfsslowerProbes.completion_event hroom)
  | ioslower m c st ret =>
      have hring : c.ringRoom = true := hroom
      simp only [Operation.passes, IoslowerProbes.emitEvent, Operation.tool, Tool.least,
        Operation.latency, ← Nat.le_div_iff_mul_le (by decide : 0 < 1000)]
      have hdiv : ((c.ktime - st.ts) / 1000).toNat = (c.ktime - st.ts).toNat / 1000 := rfl
      rw [← hdiv, ← UInt64.le_iff_toNat_le, ← UInt64.not_lt]
      by_cases hfast : (c.ktime - st.ts) / 1000 < setting <;> simp [hfast, reserve, hring]

theorem exists_operation (tool : Tool) (latency : UInt64) :
    ∃ op : Operation, op.tool = tool ∧ op.room = true ∧ op.latency = latency := by
  cases tool with
  | smbslower =>
      exact ⟨.smbslower 0 ⟨0, Buffer.zero 16, latency⟩ ⟨true, 0, 0⟩ ⟨0, 0, 0⟩, rfl, rfl, by
        simp [Operation.latency]⟩
  | nfsslower =>
      exact ⟨.nfsslower 0 ⟨0, Buffer.zero 16, latency⟩ ⟨true, 0, 0⟩ ⟨0, 0, 0⟩ ⟨0, 0⟩, rfl, rfl, by
        simp [Operation.latency]⟩
  | ioslower =>
      exact ⟨.ioslower (IoslowerProbes.Maps.fresh 0 ⟨0, 0, 0⟩) (.roomy 0 latency)
        ⟨0, 0, 0, Buffer.zero 96⟩ 0, rfl, rfl, by simp [Operation.latency, ProbeContext.roomy]⟩

/-- A tool passes exactly the operations of at least so many milliseconds. -/
def PassesFrom (tool : Tool) (setting : UInt64) (n : ℕ) : Prop :=
  ∀ op : Operation, op.tool = tool → op.room = true → op.latency.toNat < 2 ^ 63 →
    (op.passes setting = true ↔ n * 1000000 ≤ op.latency.toNat)

/-- Two thresholds agree below a bound when they are equal or both out of reach. -/
theorem thresholds_agree_iff {low high bound : ℕ} (h : low ≤ high) :
    (∀ l < bound, low ≤ l ↔ high ≤ l) ↔ low = high ∨ bound ≤ low := by
  constructor
  · intro hagree
    by_contra! hdiffer
    have := (hagree low hdiffer.2).mp le_rfl
    omega
  · rintro (rfl | hout) l hl
    · rfl
    · omega

theorem passesFrom_iff_least {tool : Tool} {setting : UInt64} {n : ℕ} :
    PassesFrom tool setting n ↔
      ∀ l < 2 ^ 63, tool.least setting ≤ l ↔ n * 1000000 ≤ l := by
  constructor
  · intro h l hl
    obtain ⟨op, rfl, hroom, hlatency⟩ := exists_operation tool (UInt64.ofNat l)
    have hl' : op.latency.toNat = l := by
      rw [hlatency, UInt64.toNat_ofNat_of_lt' (hl.trans (by decide))]
    rw [← hl', ← passes_iff_least hroom]
    exact h op rfl hroom (hl'.symm ▸ hl)
  · rintro h op rfl hroom hl
    rw [passes_iff_least hroom]
    exact h _ hl

theorem toNat_ofInt_natCast (n : ℕ) : (UInt64.ofInt n).toNat = n % 2 ^ 64 := by
  rw [UInt64.ofInt, UInt64.toNat_ofNat']
  omega

/-- smbslower and nfsslower reject what `strtoll` saturates and multiply modulo 2^64. -/
theorem minLatNs_of_decimal {arg : CString} {n : ℕ} {setting : UInt64}
    (harg : decimal arg = some (n : ℤ)) (h : (minLatMs arg).map minLatNs = some setting) :
    setting.toNat = n * 1000000 % 2 ^ 64 := by
  have hvalue : minLatNs (UInt64.ofInt n) = setting := by
    simp only [minLatMs, strtol_decimal_natCast harg] at h
    split at h
    next => simp at h
    next => simpa using h
  rw [← hvalue, minLatNs, UInt64.toNat_mul, UInt64.toNat_mul, toNat_ofInt_natCast]
  simp only [UInt64.toNat_ofNat]
  omega

/-- ioslower keeps what `strtol` saturates and multiplies modulo 2^64. -/
theorem minUs_of_decimal {arg : CString} {n : ℕ} (harg : decimal arg = some (n : ℤ)) :
    (minUs arg).toNat = min n longMax.toNat * 1000 % 2 ^ 64 := by
  have hvalue : (strtol 10 arg).value = (min n longMax.toNat : ℕ) := by
    rw [strtol_decimal_natCast harg]
    unfold longMax
    split <;> simp <;> omega
  have hcast : ∀ k : ℕ, (Int64.ofInt k).toUInt64 = UInt64.ofInt k := by
    intro k
    apply UInt64.toNat_inj.mp
    rw [toNat_ofInt_natCast]
    simp [← UInt64.toNat_toBitVec]
  rw [minUs, hvalue, Int64.toUInt64_mul, hcast, UInt64.toNat_mul, toNat_ofInt_natCast]
  have hthousand : (1000 : Int64).toUInt64.toNat = 1000 := rfl
  rw [hthousand]
  omega

/-- The product fits 64 bits, or what is left of it is out of reach all the same. -/
def Tool.Fits : Tool → ℕ → Prop
  | .smbslower, n | .nfsslower, n => n * 1000000 < 2 ^ 64 ∨ 2 ^ 63 ≤ n * 1000000 % 2 ^ 64
  | .ioslower, n => n * 1000 < 2 ^ 64 ∨ longMax < n ∨ 2 ^ 63 ≤ n * 1000 % 2 ^ 64 * 1000

instance : (tool : Tool) → (n : ℕ) → Decidable (tool.Fits n)
  | .smbslower, _ | .nfsslower, _ | .ioslower, _ => inferInstanceAs (Decidable (_ ∨ _))

/-- A tool that accepts a number of milliseconds passes exactly the operations
of that length or more if and only if the number fits. -/
theorem passesFrom_iff_fits {tool : Tool} {arg : CString} {n : ℕ} {setting : UInt64}
    (harg : decimal arg = some (n : ℤ)) (h : tool.setting arg = some setting) :
    PassesFrom tool setting n ↔ tool.Fits n := by
  rw [passesFrom_iff_least]
  cases tool with
  | smbslower | nfsslower =>
      have hleast := minLatNs_of_decimal harg h
      simp only [Tool.least, Tool.Fits, hleast]
      rw [thresholds_agree_iff (Nat.mod_le _ _)]
      omega
  | ioslower =>
      obtain rfl : minUs arg = setting := Option.some.inj h
      simp only [Tool.least, Tool.Fits, minUs_of_decimal harg]
      have hcap : min n longMax.toNat * 1000 % 2 ^ 64 * 1000 ≤ n * 1000000 := by
        have hmod := Nat.mod_le (min n longMax.toNat * 1000) (2 ^ 64)
        omega
      rw [thresholds_agree_iff hcap]
      by_cases hmax : longMax < n
      · -- saturation leaves 2^64 - 1000 microseconds
        have hmin : min n longMax.toNat = 9223372036854775807 := by
          unfold longMax at hmax ⊢
          omega
        simp [hmin, hmax]
      · have hmin : min n longMax.toNat = n := by omega
        simp only [hmin, hmax, false_or]
        omega

/-- A second, and the largest number whose nanoseconds fit 64 bits. -/
theorem passesFrom_iff_fits_second :
    PassesFrom .smbslower (UInt64.ofNat 1000000000) 1000 ∧
    PassesFrom .nfsslower (UInt64.ofNat 18446744073709000000) 18446744073709 ∧
    PassesFrom .ioslower (UInt64.ofNat 1000000) 1000 :=
  ⟨(@passesFrom_iff_fits .smbslower (cstr "1000") _ _ (by decide) (by decide)).mpr (by decide),
    (@passesFrom_iff_fits .nfsslower (cstr "18446744073709") _ _ (by decide) (by decide)).mpr
      (by decide),
    (@passesFrom_iff_fits .ioslower (cstr "1000") _ _ (by decide) (by decide)).mpr (by decide)⟩

/-- 18446744073710 ms, some 584 years, wrap to 448384 ns. -/
theorem passesFrom_fails_wrapped :
    ¬ ∀ (tool : Tool) (arg : CString) (n : ℕ) (setting : UInt64),
      decimal arg = some (n : ℤ) → tool.setting arg = some setting →
      PassesFrom tool setting n := by
  intro h
  have hpasses := h .smbslower (cstr "18446744073710") 18446744073710 448384 (by decide) (by decide)
  rw [passesFrom_iff_least] at hpasses
  exact absurd ((hpasses 1000000 (by decide)).mp (by decide)) (by decide)

end MonitoringTools.LatencyThreshold
