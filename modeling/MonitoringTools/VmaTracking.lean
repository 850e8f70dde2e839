import MonitoringTools.IoslowerProbes
import MonitoringTools.IosnoopProbes
import MonitoringTools.PackedTable

/-!
# Which device a munmap finds

Both filesystem tracers remember the device of a file mapping from the return
of `do_mmap` to the entry of `vm_munmap`, under one word packed from process
and page number. The page number of a user address has up to 35 bits and the
process id is shifted by 32 only, so the two overlap from address bit 44 up.
-/
namespace MonitoringTools.VmaTracking
open BpfHelpers FilesystemProbes PackedTable

abbrev Place := UInt32 × UInt64

def Place.key (x : Place) : UInt64 := vmaKey x.1 x.2

/-- What a firing does to the mapping of a place. `tracked` is the device a
return of `do_mmap` stores, when it stores one. -/
def tableOp (tracked : ProbeContext → UInt64 → Option UInt32) :
    Firing → Option (Op Place UInt32)
  | .leave c .doMmap ret => (tracked c ret).map (.put (c.pid, ret))
  | .enter c (.vmMunmap start _) => some (.drop (c.pid, start))
  | _ => none

/-- A tracing program seen from its mapping table, with the two laws that tie
the table to the mapping operations. -/
structure Program (M : Type) where
  fire : M → Firing → M
  table : M → HashMap UInt64 UInt32
  tracked : M → ProbeContext → UInt64 → Option UInt32
  tracked_pos : ∀ {m c ret dev}, tracked m c ret = some dev → 0 < asLong ret
  table_fire : ∀ m {f : Firing}, f.context.vmaRoom = true → table (fire m f) =
    match tableOp (tracked m) f with
      | some (.put x dev) => (table m).insert x.key dev
      | some (.drop x) => (table m).erase x.key
      | none => table m

namespace Program
variable {M : Type} (P : Program M)

/-- The mapping history of a run, newest first, beside the maps it reached. -/
def track (s : M × List (Op Place UInt32)) (f : Firing) : M × List (Op Place UInt32) :=
  (P.fire s.1 f, (tableOp (P.tracked s.1) f).toList ++ s.2)

def history (m : M) (fs : List Firing) : List (Op Place UInt32) := (fs.foldl P.track (m, [])).2

/-- Every munmap of a run finds the device stored by the latest tracked mmap
of the same process at the same address, unless that place was unmapped since. -/
def FindsLatest (m : M) (fs : List Firing) : Prop :=
  ∀ before c start len after, fs = before ++ .enter c (.vmMunmap start len) :: after →
    (P.table (before.foldl P.fire m)).lookup (vmaKey c.pid start) =
      latest (c.pid, start) (P.history m before)

end Program

/-- The places a run maps at and unmaps. -/
def Within (D : Set Place) (fs : List Firing) : Prop :=
  ∀ f ∈ fs, match f with
    | .leave c .doMmap ret => 0 < asLong ret → (c.pid, ret) ∈ D
    | .enter c (.vmMunmap start _) => (c.pid, start) ∈ D
    | _ => True

/-- No two of the places agree both in the low 32 bits of the page number and
in the process id joined with the address bits from 44 up. -/
def CollisionFree (D : Set Place) : Prop :=
  ∀ x ∈ D, ∀ y ∈ D, x.1.toNat ||| x.2.toNat / 2 ^ 44 = y.1.toNat ||| y.2.toNat / 2 ^ 44 →
    x.2.toNat / 2 ^ 12 % 2 ^ 32 = y.2.toNat / 2 ^ 12 % 2 ^ 32 → x = y

/-- Page-aligned user addresses, in any process. -/
def userPlaces : Set Place := {x | x.2.toNat < 2 ^ 47 ∧ x.2.toNat % 2 ^ 12 = 0}

theorem collisionFree_iff_injOn (D : Set Place) : CollisionFree D ↔ D.InjOn Place.key := by
  refine forall₂_congr fun x _ => forall₂_congr fun y _ => ?_
  rw [Place.key, Place.key, vmaKey_eq_iff, and_imp]

/-- Below 2^44 the page number has 32 bits, so the halves do not mix. -/
theorem collisionFree_below {D : Set Place} (hD : D ⊆ userPlaces)
    (hlow : ∀ x ∈ D, x.2.toNat < 2 ^ 44) : CollisionFree D := by
  intro x hx y hy hpid hpage
  have hxlow := hlow x hx
  have hylow := hlow y hy
  have hxpage := (hD hx).2
  have hypage := (hD hy).2
  rw [Nat.div_eq_of_lt hxlow, Nat.div_eq_of_lt hylow, Nat.or_zero, Nat.or_zero] at hpid
  refine Prod.ext (UInt32.toNat_inj.mp hpid) (UInt64.toNat_inj.mp ?_)
  omega

namespace Program
variable {M : Type} (P : Program M)

@[simp] theorem history_concat (m : M) (fs : List Firing) (f : Firing) :
    P.history m (fs ++ [f]) = (tableOp (P.tracked (fs.foldl P.fire m)) f).toList ++ P.history m fs := by
  have hmaps : (fs.foldl P.track (m, [])).1 = fs.foldl P.fire m := by
    induction fs using List.reverseRecOn with
    | nil => rfl
    | append_singleton fs f ih => rw [List.foldl_concat, List.foldl_concat, track, ih]
  rw [history, List.foldl_concat, track, hmaps, history]

/-- The table of a run is the latest word of its packed history. -/
theorem table_run {m : M} (hempty : P.table m = ∅) {fs : List Firing}
    (hroom : ∀ f ∈ fs, f.context.vmaRoom = true) (k : UInt64) :
    (P.table (fs.foldl P.fire m)).lookup k =
      latest k ((P.history m fs).map (Op.map Place.key)) := by
  induction fs using List.reverseRecOn with
  | nil => exact (congrArg (Finmap.lookup k) hempty).trans (Finmap.lookup_empty k)
  | append_singleton fs f ih =>
      have ih := ih fun g hg => hroom g (List.mem_append_left _ hg)
      rw [List.foldl_concat, P.table_fire _ (hroom f (by simp)), history_concat]
      cases tableOp (P.tracked (fs.foldl P.fire m)) f with
      | none => exact ih
      | some op =>
          cases op with
          | put x dev => exact (HashMap.lookup_insert_eq _ _ _ _).trans (by rw [ih]; rfl)
          | drop x => exact (HashMap.lookup_erase_eq _ _ _).trans (by rw [ih]; rfl)

theorem history_within {D : Set Place} {m : M} {fs : List Firing} (h : Within D fs) :
    ∀ o ∈ P.history m fs, o.address ∈ D := by
  induction fs using List.reverseRecOn with
  | nil => exact fun o ho => absurd ho List.not_mem_nil
  | append_singleton fs f ih =>
      have ih := ih fun g hg => h g (List.mem_append_left _ hg)
      have hf := h f (by simp)
      intro o ho
      rw [history_concat, List.mem_append, Option.mem_toList] at ho
      rcases ho with ho | ho
      · unfold tableOp at ho
        split at ho
        next c ret =>
          obtain ⟨dev, hdev, rfl⟩ := Option.map_eq_some_iff.mp ho
          exact hf (P.tracked_pos hdev)
        next c start len =>
          cases ho
          exact hf
        next => cases ho
      · exact ih o ho

theorem findsLatest_of_collisionFree {D : Set Place} (hD : CollisionFree D) {m : M}
    (hempty : P.table m = ∅) {fs : List Firing} (hfs : Within D fs)
    (hroom : ∀ f ∈ fs, f.context.vmaRoom = true) : P.FindsLatest m fs := by
  rintro before c start len after rfl
  rw [P.table_run hempty fun f hf => hroom f (List.mem_append_left _ hf)]
  have hplace : (c.pid, start) ∈ D :=
    hfs (.enter c (.vmMunmap start len)) (List.mem_append_right _ List.mem_cons_self)
  exact latest_map_of_injOn ((collisionFree_iff_injOn D).mp hD) hplace
    (P.history_within fun f hf => hfs f (List.mem_append_left _ hf))

theorem not_findsLatest {m : M} (hempty : P.table m = ∅) {before : List Firing}
    (hroom : ∀ f ∈ before, f.context.vmaRoom = true) {x : Place} {dev : UInt32}
    (hbefore : P.history m before = [.put x dev]) {c : ProbeContext} {start : UInt64}
    (hne : (c.pid, start) ≠ x) (hkey : Place.key (c.pid, start) = x.key) (len : UInt64) :
    ¬ P.FindsLatest m (before ++ [.enter c (.vmMunmap start len)]) := by
  intro h
  have hfound := h before c start len [] rfl
  rw [P.table_run hempty hroom, hbefore] at hfound
  exact latest_map_collision Place.key dev hne hkey hfound

end Program

theorem iosnoop_table_fire (m : IosnoopProbes.Maps) {f : Firing} (hroom : f.context.vmaRoom = true) :
    (IosnoopProbes.fire m f).vmaDevMap = match tableOp (IosnoopProbes.trackedDevice m) f with
      | some (.put x dev) => m.vmaDevMap.insert x.key dev
      | some (.drop x) => m.vmaDevMap.erase x.key
      | none => m.vmaDevMap := by
  cases f with
  | enter c call =>
      rw [IosnoopProbes.fire, IosnoopProbes.enter_vmaDevMap]
      cases call <;> rfl
  | leave c hook ret =>
      rw [IosnoopProbes.fire, IosnoopProbes.leave_spec]
      cases hook
      case doMmap =>
        have hroom : c.vmaRoom = true := hroom
        simp only [tableOp, hroom]
        cases IosnoopProbes.trackedDevice m c ret <;> rfl
      all_goals rfl

theorem ioslower_table_fire (m : IoslowerProbes.Maps) {f : Firing}
    (hroom : f.context.vmaRoom = true) :
    (IoslowerProbes.fire m f).vmaDevMap = match tableOp (IoslowerProbes.trackedDevice m) f with
      | some (.put x dev) => m.vmaDevMap.insert x.key dev
      | some (.drop x) => m.vmaDevMap.erase x.key
      | none => m.vmaDevMap := by
  cases f with
  | enter c call =>
      rw [IoslowerProbes.fire, IoslowerProbes.enter_spec]
      cases call <;> rfl
  | leave c hook ret =>
      rw [IoslowerProbes.fire, IoslowerProbes.leave_spec]
      cases hook
      case doMmap =>
        have hroom : c.vmaRoom = true := hroom
        simp only [tableOp, hroom]
        cases IoslowerProbes.trackedDevice m c ret <;> rfl
      all_goals rfl

def iosnoop : Program IosnoopProbes.Maps where
  fire := IosnoopProbes.fire
  table := IosnoopProbes.Maps.vmaDevMap
  tracked := IosnoopProbes.trackedDevice
  tracked_pos h := (IosnoopProbes.trackedDevice_some.mp h).choose_spec.2.1
  table_fire m _ := iosnoop_table_fire m

def ioslower : Program IoslowerProbes.Maps where
  fire := IoslowerProbes.fire
  table := IoslowerProbes.Maps.vmaDevMap
  tracked := IoslowerProbes.trackedDevice
  tracked_pos h := (IoslowerProbes.trackedDevice_some.mp h).choose_spec.2.1
  table_fire m _ := ioslower_table_fire m

/-- The law over every run that stays within a set of places, whatever the
filter and the threshold. -/
def IosnoopFindsLatest (D : Set Place) : Prop :=
  ∀ cfg fs, Within D fs → (∀ f ∈ fs, f.context.vmaRoom = true) →
    iosnoop.FindsLatest (IosnoopProbes.Maps.fresh cfg) fs

def IoslowerFindsLatest (D : Set Place) : Prop :=
  ∀ threshold cfg fs, Within D fs → (∀ f ∈ fs, f.context.vmaRoom = true) →
    ioslower.FindsLatest (IoslowerProbes.Maps.fresh threshold cfg) fs

/-- Some thread of a process, at some time. -/
def contextOf (pid : UInt32) : ProbeContext := .roomy (pid.toUInt64 <<< 32) 0

@[simp] theorem contextOf_pid (pid : UInt32) : (contextOf pid).pid = pid := by
  have hpid := pid.toNat_lt
  refine UInt32.toNat_inj.mp ?_
  simp only [ProbeContext.pid, contextOf, ProbeContext.roomy, UInt64.toNat_toUInt32,
    UInt64.toNat_shiftRight, UInt64.toNat_shiftLeft, UInt32.toNat_toUInt64, UInt64.toNat_ofNat]
  rw [show 32 % 2 ^ 64 % 64 = 32 from rfl, Nat.shiftLeft_eq, Nat.shiftRight_eq_div_pow]
  omega

/-- A file of device 8:1 is mapped somewhere. -/
def mapCall : Call :=
  .doMmap (some ⟨some ⟨some ⟨0x800001⟩, none⟩, some ⟨some ⟨0x800001⟩⟩, 0⟩) 4096 1

def mapAt (x : Place) : List Firing :=
  [.enter (contextOf x.1) mapCall, .leave (contextOf x.1) .doMmap x.2]

theorem mapAt_history {M : Type} (P : Program M) {m : M} {x : Place} {dev : UInt32}
    (h : P.tracked (P.fire m (.enter (contextOf x.1) mapCall)) (contextOf x.1) x.2 = some dev) :
    P.history m (mapAt x) = [.put x dev] := by
  simp only [Program.history, mapAt, List.foldl_cons, List.foldl_nil, Program.track, tableOp, h,
    contextOf_pid]
  rfl

theorem mapAt_iosnoop {x : Place} (hx : 0 < asLong x.2) :
    iosnoop.history (IosnoopProbes.Maps.fresh ⟨0, 0, 0⟩) (mapAt x) = [.put x 0x800001] := by
  apply mapAt_history
  simp only [iosnoop, IosnoopProbes.fire, IosnoopProbes.trackedDevice_some]
  have hstored : IosnoopProbes.storedCtx (IosnoopProbes.Maps.fresh ⟨0, 0, 0⟩) (contextOf x.1)
      mapCall = IosnoopProbes.entryCtx (IosnoopProbes.Maps.fresh ⟨0, 0, 0⟩) (contextOf x.1)
        mapCall := by
    rfl
  refine ⟨_, IosnoopProbes.enter_stores rfl hstored, hx, ?_⟩
  rfl

theorem mapAt_ioslower {x : Place} (hx : 0 < asLong x.2) :
    ioslower.history (IoslowerProbes.Maps.fresh 0 ⟨0, 0, 0⟩) (mapAt x) = [.put x 0x800001] := by
  apply mapAt_history
  simp only [ioslower, IoslowerProbes.fire, IoslowerProbes.trackedDevice_some]
  have hstored : IoslowerProbes.storedStart (IoslowerProbes.Maps.fresh 0 ⟨0, 0, 0⟩)
      (contextOf x.1) mapCall = IoslowerProbes.entryStart (IoslowerProbes.Maps.fresh 0 ⟨0, 0, 0⟩)
        (contextOf x.1) mapCall := by
    rfl
  refine ⟨_, IoslowerProbes.enter_stores rfl hstored, hx, ?_⟩
  rfl

theorem exists_collision {D : Set Place} (hD : D ⊆ userPlaces) (h : ¬ CollisionFree D) :
    ∃ x ∈ D, ∃ y ∈ D, 0 < asLong x.2 ∧ y ≠ x ∧ y.key = x.key := by
  rw [collisionFree_iff_injOn, Set.InjOn] at h
  push Not at h
  obtain ⟨x, hx, y, hy, hkey, hne⟩ := h
  have hpos : ∀ z ∈ D, z.2.toNat ≠ 0 → 0 < asLong z.2 := by
    intro z hz hzero
    have := (hD hz).1
    exact asLong_pos hzero (by omega)
  by_cases hx0 : x.2.toNat = 0
  · by_cases hy0 : y.2.toNat = 0
    -- at address zero the key is the process id alone
    · have hpid := (vmaKey_eq_iff.mp hkey).1
      rw [hx0, hy0, Nat.zero_div, Nat.or_zero, Nat.or_zero] at hpid
      exact absurd (Prod.ext (UInt32.toNat_inj.mp hpid)
        (UInt64.toNat_inj.mp (hx0.trans hy0.symm))) hne
    · exact ⟨y, hy, x, hx, hpos y hy hy0, hne, hkey⟩
  · exact ⟨x, hx, y, hy, hpos x hx hx0, Ne.symm hne, hkey.symm⟩

def unmapAt (y : Place) : Firing := .enter (contextOf y.1) (.vmMunmap y.2 4096)

theorem within_mapAt {D : Set Place} {x y : Place} (hx : x ∈ D) (hy : y ∈ D) :
    Within D (mapAt x ++ [unmapAt y]) := by
  intro f hf
  simp only [mapAt, unmapAt, List.cons_append, List.nil_append, List.mem_cons, List.not_mem_nil,
    or_false] at hf
  rcases hf with rfl | rfl | rfl
  · trivial
  · simpa using fun _ => hx
  · simpa using hy

theorem roomy_mapAt {x y : Place} :
    ∀ f ∈ mapAt x ++ [unmapAt y], f.context.vmaRoom = true := by
  simp [mapAt, unmapAt, Firing.context, contextOf, ProbeContext.roomy]

/-- A run that maps at a place and unmaps at another with its key misleads the
munmap. -/
theorem Program.collision_misleads {M : Type} (P : Program M) {m : M} (hempty : P.table m = ∅)
    {x y : Place} {dev : UInt32} (hmap : P.history m (mapAt x) = [.put x dev]) (hne : y ≠ x)
    (hkey : y.key = x.key) : ¬ P.FindsLatest m (mapAt x ++ [unmapAt y]) := by
  refine P.not_findsLatest hempty (fun f hf => roomy_mapAt (y := y) f (List.mem_append_left _ hf))
    hmap ?_ ?_ 4096
  · rwa [contextOf_pid]
  · rwa [contextOf_pid]

theorem Program.collisionFree_of_findsLatest {M : Type} (P : Program M) {m : M} {dev : UInt32}
    {D : Set Place} (hD : D ⊆ userPlaces) (hempty : P.table m = ∅)
    (hmap : ∀ {x : Place}, 0 < asLong x.2 → P.history m (mapAt x) = [.put x dev])
    (h : ∀ fs, Within D fs → (∀ f ∈ fs, f.context.vmaRoom = true) → P.FindsLatest m fs) :
    CollisionFree D := by
  by_contra hcollision
  obtain ⟨x, hx, y, hy, hpos, hne, hkey⟩ := exists_collision hD hcollision
  exact P.collision_misleads hempty (hmap hpos) hne hkey
    (h _ (within_mapAt hx hy) roomy_mapAt)

theorem iosnoopFindsLatest_iff {D : Set Place} (hD : D ⊆ userPlaces) :
    IosnoopFindsLatest D ↔ CollisionFree D := by
  constructor
  · intro h
    exact iosnoop.collisionFree_of_findsLatest hD rfl mapAt_iosnoop (h _)
  · intro h cfg fs hfs hroom
    exact iosnoop.findsLatest_of_collisionFree h rfl hfs hroom

theorem ioslowerFindsLatest_iff {D : Set Place} (hD : D ⊆ userPlaces) :
    IoslowerFindsLatest D ↔ CollisionFree D := by
  constructor
  · intro h
    exact ioslower.collisionFree_of_findsLatest hD rfl mapAt_ioslower (h _ _)
  · intro h threshold cfg fs hfs hroom
    exact ioslower.findsLatest_of_collisionFree h rfl hfs hroom

/-- In both programs every run over a set of user places finds what it should
exactly when no two of the places collide. -/
theorem mappings_found_iff_collisionFree {D : Set Place} (hD : D ⊆ userPlaces) :
    (IosnoopFindsLatest D ↔ CollisionFree D) ∧ (IoslowerFindsLatest D ↔ CollisionFree D) :=
  ⟨iosnoopFindsLatest_iff hD, ioslowerFindsLatest_iff hD⟩

/-- Every mapping below 2^44 is tracked right. -/
theorem mappings_found_below :
    IosnoopFindsLatest {x ∈ userPlaces | x.2.toNat < 2 ^ 44} ∧
    IoslowerFindsLatest {x ∈ userPlaces | x.2.toNat < 2 ^ 44} := by
  have hfree : CollisionFree {x ∈ userPlaces | x.2.toNat < 2 ^ 44} :=
    collisionFree_below (Set.sep_subset _ _) fun _ hx => hx.2
  have hiff := mappings_found_iff_collisionFree (Set.sep_subset userPlaces fun x => x.2.toNat < 2 ^ 44)
  exact ⟨hiff.1.mpr hfree, hiff.2.mpr hfree⟩

/-- At 0x7f0000000000 the address bits from 44 up are 111, which is where the
ids of processes 1000 and 1001 differ. -/
theorem mappings_found_fails_adjacent_processes :
    ¬ IosnoopFindsLatest userPlaces ∧ ¬ IoslowerFindsLatest userPlaces := by
  let x : Place := (1000, 0x7f0000000000)
  let y : Place := (1001, 0x7f0000000000)
  have hx : x ∈ userPlaces := ⟨by decide, by decide⟩
  have hy : y ∈ userPlaces := ⟨by decide, by decide⟩
  have hcollision : ¬ CollisionFree userPlaces := by
    intro h
    have hsame : x = y := h x hx y hy (by decide) (by decide)
    exact absurd hsame (by decide)
  exact ⟨mt (iosnoopFindsLatest_iff subset_rfl).mp hcollision,
    mt (ioslowerFindsLatest_iff subset_rfl).mp hcollision⟩

end MonitoringTools.VmaTracking
