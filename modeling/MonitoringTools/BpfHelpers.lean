import Mathlib.Data.Finmap

/-!
# Hash maps, ring buffer and context helpers of a BPF program

A hash map is a finite map. Whether an insertion finds a free element and
whether a reservation finds free space is up to the kernel, so both answers
are inputs. A reservation with nonzero flags fails whatever the space.
-/
namespace MonitoringTools.BpfHelpers

abbrev HashMap (K V : Type) := Finmap fun _ : K => V

namespace HashMap
variable {K V : Type} [DecidableEq K]

/-- `bpf_map_update_elem` with `BPF_ANY`. -/
def update (m : HashMap K V) (room : Bool) (k : K) (v : V) : HashMap K V :=
  if room then m.insert k v else m

/-- `bpf_map_update_elem` with `BPF_NOEXIST`: a present key is left alone. -/
def updateNoexist (m : HashMap K V) (room : Bool) (k : K) (v : V) : HashMap K V :=
  if (m.lookup k).isSome then m else m.update room k v

@[simp] theorem update_true (m : HashMap K V) (k : K) (v : V) : m.update true k v = m.insert k v := rfl
@[simp] theorem update_false (m : HashMap K V) (k : K) (v : V) : m.update false k v = m := rfl

theorem lookup_insert_eq (m : HashMap K V) (k k' : K) (v : V) :
    (Finmap.insert k v m).lookup k' = if k' = k then some v else m.lookup k' := by
  split
  next h => rw [h, Finmap.lookup_insert]
  next h => exact Finmap.lookup_insert_of_ne m h

theorem lookup_erase_eq (m : HashMap K V) (k k' : K) :
    (Finmap.erase k m).lookup k' = if k' = k then none else m.lookup k' := by
  split
  next h => rw [h, Finmap.lookup_erase]
  next h => exact Finmap.lookup_erase_ne h

theorem erase_eq_self {m : HashMap K V} {k : K} (h : m.lookup k = none) : m.erase k = m := by
  refine Finmap.ext_lookup fun j => ?_
  rw [lookup_erase_eq]
  split
  next hj => rw [hj, h]
  next => rfl

theorem lookup_insert_fun (m : HashMap K V) (k : K) (v : V) :
    (fun j => (Finmap.insert k v m).lookup j) = Function.update m.lookup k (some v) := by
  funext j
  rw [lookup_insert_eq, Function.update_apply]

theorem lookup_erase_fun (m : HashMap K V) (k : K) :
    (fun j => (Finmap.erase k m).lookup j) = Function.update m.lookup k none := by
  funext j
  rw [lookup_erase_eq, Function.update_apply]

end HashMap

/-- The bytes of a string literal, without its terminator. -/
def bytes (s : String) : List UInt8 := s.toList.map fun c => UInt8.ofNat c.toNat

abbrev Buffer (n : ℕ) := {b : List UInt8 // b.length = n}

namespace Buffer
variable {n : ℕ}

def zero (n : ℕ) : Buffer n := ⟨List.replicate n 0, List.length_replicate⟩

/-- A string copied with its terminator into a zeroed array, cut to fit. -/
def ofString (n : ℕ) (s : List UInt8) : Buffer n :=
  let kept := (s.takeWhile (· ≠ 0)).take (n - 1)
  ⟨kept ++ List.replicate (n - kept.length) 0, by
    have : kept.length ≤ n - 1 := List.length_take_le _ _
    rw [List.length_append, List.length_replicate]
    omega⟩

/-- `memset` of the larger array, then `memcpy` of the smaller one. -/
def widen (b : Buffer n) (k : ℕ) : Buffer (n + k) :=
  ⟨b.1 ++ List.replicate k 0, by rw [List.length_append, b.2, List.length_replicate]⟩

end Buffer

/-- `bpf_ringbuf_reserve` succeeds only with zero flags and free space. -/
def reserve (flags : ℕ) (room : Bool) : Bool := flags == 0 && room

/-- `BPF_RB_NO_WAKEUP` and `BPF_RB_FORCE_WAKEUP`. -/
def noWakeup : ℕ := 1
def forceWakeup : ℕ := 2

/-- What the helpers answer during one probe firing. A handler that reads the
clock twice sees `ktime` first and `ktimeEmit` while it fills the event. -/
structure ProbeContext where
  pidTgid : UInt64
  uidGid : UInt64
  comm : Buffer 16
  ktime : UInt64
  ktimeEmit : UInt64
  stateRoom : Bool
  vmaRoom : Bool
  ringRoom : Bool
  deriving DecidableEq, Repr

/-- `bpf_get_current_pid_tgid() >> 32`, narrowed as the sources narrow it. -/
def ProbeContext.pid (c : ProbeContext) : UInt32 := (c.pidTgid >>> 32).toUInt32

/-- The operation table and the ring have space for the firing. -/
def ProbeContext.Roomy (c : ProbeContext) : Prop := c.stateRoom = true ∧ c.ringRoom = true

instance (c : ProbeContext) : Decidable c.Roomy := inferInstanceAs (Decidable (_ ∧ _))

/-- A firing of a thread at a time, with space everywhere. -/
def ProbeContext.roomy (pidTgid ktime : UInt64) : ProbeContext :=
  ⟨pidTgid, 0, Buffer.zero 16, ktime, ktime, true, true, true⟩

end MonitoringTools.BpfHelpers
