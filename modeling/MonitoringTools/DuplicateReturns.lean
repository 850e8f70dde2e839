import MonitoringTools.HookSelection
import MonitoringTools.IoslowerProbes
import MonitoringTools.IosnoopProbes
import MonitoringTools.Runs

/-!
# Two return programs of one function

Without fentry both loaders leave two return programs of `vfs_rename` on. The second one
runs on the thread of the first, after it and before anything else of that thread; on other
processors all may happen in between. It finds no record any more.
-/
namespace MonitoringTools.DuplicateReturns
open BpfHelpers FilesystemProbes HookSelection Runs

/-- A return program runs once more for the same return. -/
def Repeats (g f : Firing) : Prop :=
  ∃ c c' h ret, g = .leave c h ret ∧ f = .leave c' h ret ∧ c'.pidTgid = c.pidTgid

/-- Firings of two threads. -/
def Apart (g f : Firing) : Prop := g.context.pidTgid ≠ f.context.pidTgid

/-- The return programs of a function that are on. -/
def returnPrograms (k : Kernel) (h : Hook) : ℕ :=
  (iosnoopLeft k).countP fun p => p.target == some (symbol h) && p.isReturn

/-- A run of the programs that the selection leaves on. The first program that runs at a
return is marked false, any further one true. -/
structure Plays (k : Kernel) (gs : List (Firing × Bool)) : Prop where
  echoed : Echoed Repeats Apart gs
  programs : ∀ f, (f, true) ∈ gs → ∃ c h ret, f = .leave c h ret ∧ 1 < returnPrograms k h

theorem one_lt_returnPrograms {k : Kernel} {h : Hook} (hmany : 1 < returnPrograms k h) :
    h = .vfsRename := by
  have hbalanced := rowCount_balanced_iff h k.vfsFentryFamilySupported
    (k.functionExists (symbol h)) k.legacyVfsCreate k.legacyVfsRename
  rw [← entries_eq, ← returns_eq] at hbalanced
  by_contra hne
  have hone := (hbalanced.mpr (.inl hne)).2.1
  rw [returnPrograms, iosnoopLeft_eq] at hmany
  exact absurd hmany (Nat.not_lt.mpr hone)

section Iosnoop
open IosnoopProbes

/-- A return program without a record changes nothing, and only then. -/
theorem iosnoop_leave_eq_iff {m : Maps} {c : ProbeContext} {h : Hook} {ret : UInt64} :
    fire m (.leave c h ret) = m ↔ m.opState.lookup (opKey c.pidTgid (exitType h)) = none := by
  constructor
  · intro hsame
    rw [← hsame, fire, leave_spec, HashMap.lookup_erase_eq, if_pos rfl]
  · intro hnone
    rw [fire, leave_spec, HashMap.erase_eq_self hnone, exitEvents, hnone, List.append_nil]
    cases h
    case doMmap =>
      have hdev : trackedDevice m c ret = none := by
        unfold trackedDevice
        rw [show m.opState.lookup (opKey c.pidTgid ioMmap) = none from hnone]
      rw [hdev]
    all_goals rfl

theorem iosnoop_fire_apart {m : Maps} {f : Firing} {id : UInt64} (hne : f.context.pidTgid ≠ id)
    (type : UInt8) : (fire m f).opState.lookup (opKey id type) =
      m.opState.lookup (opKey id type) := by
  cases f with
  | enter c call =>
      have hkey : ∀ t, opKey id type ≠ opKey c.pidTgid t := fun t heq =>
        hne (opKey_inj.mp heq).1.symm
      rw [fire, enter_spec]
      cases storedCtx m c call with
      | none => rfl
      | some op =>
          simp only [HashMap.update]
          split
          · rw [HashMap.lookup_insert_eq, if_neg (hkey _)]
          · rfl
  | leave c h ret =>
      have hkey : opKey id type ≠ opKey c.pidTgid (exitType h) := fun heq =>
        hne (opKey_inj.mp heq).1.symm
      rw [fire, leave_spec, HashMap.lookup_erase_eq, if_neg hkey]

end Iosnoop

section Ioslower
open IoslowerProbes

theorem ioslower_leave_eq_iff {m : Maps} {c : ProbeContext} {h : Hook} {ret : UInt64} :
    fire m (.leave c h ret) = m ↔ m.opStart.lookup c.pidTgid = none := by
  constructor
  · intro hsame
    rw [← hsame, fire, leave_spec, HashMap.lookup_erase_eq, if_pos rfl]
  · intro hnone
    rw [fire, leave_spec, HashMap.erase_eq_self hnone, exitEvents, hnone, List.append_nil]
    have hdev : trackedDevice m c ret = none := by rw [trackedDevice, hnone]
    rw [hdev]
    cases h <;> rfl

theorem ioslower_fire_apart {m : Maps} {f : Firing} {id : UInt64} (hne : f.context.pidTgid ≠ id) :
    (fire m f).opStart.lookup id = m.opStart.lookup id := by
  cases f with
  | enter c call =>
      have hkey : id ≠ c.pidTgid := Ne.symm hne
      rw [fire, enter_spec]
      cases storedStart m c call with
      | none => rfl
      | some st =>
          simp only [HashMap.update]
          split
          · rw [HashMap.lookup_insert_eq, if_neg hkey]
          · rfl
  | leave c h ret =>
      have hkey : id ≠ c.pidTgid := Ne.symm hne
      rw [fire, leave_spec, HashMap.lookup_erase_eq, if_neg hkey]

end Ioslower

theorem iosnoop_echoes {gs : List (Firing × Bool)} (h : Echoed Repeats Apart gs)
    (m : IosnoopProbes.Maps) : (gs.map Prod.fst).foldl IosnoopProbes.fire m =
      (originals gs).foldl IosnoopProbes.fire m := by
  refine foldl_echoes ?_ ?_ h m
  · rintro m g f ⟨c, c', hook, ret, rfl, rfl, hid⟩
    rw [iosnoop_leave_eq_iff, hid, IosnoopProbes.fire, IosnoopProbes.leave_spec,
      HashMap.lookup_erase_eq, if_pos rfl]
  · rintro m f' g f ⟨c, c', hook, ret, rfl, rfl, hid⟩ hapart hsame
    rw [iosnoop_leave_eq_iff] at hsame ⊢
    exact (iosnoop_fire_apart hapart _).trans hsame

theorem ioslower_echoes {gs : List (Firing × Bool)} (h : Echoed Repeats Apart gs)
    (m : IoslowerProbes.Maps) : (gs.map Prod.fst).foldl IoslowerProbes.fire m =
      (originals gs).foldl IoslowerProbes.fire m := by
  refine foldl_echoes ?_ ?_ h m
  · rintro m g f ⟨c, c', hook, ret, rfl, rfl, hid⟩
    rw [ioslower_leave_eq_iff, hid, IoslowerProbes.fire, IoslowerProbes.leave_spec,
      HashMap.lookup_erase_eq, if_pos rfl]
  · rintro m f' g f ⟨c, c', hook, ret, rfl, rfl, hid⟩ hapart hsame
    rw [ioslower_leave_eq_iff] at hsame ⊢
    exact (ioslower_fire_apart hapart).trans hsame

/-- Whatever the kernel, the second return programs belong to the rename, and both tools end
up with the maps and the events that they have without them. -/
theorem duplicates_inert {k : Kernel} {gs : List (Firing × Bool)} (h : Plays k gs)
    (cfg : MountFilterCfg) (threshold : UInt64) :
    (∀ f, (f, true) ∈ gs → ∃ c ret, f = .leave c .vfsRename ret) ∧
      (gs.map Prod.fst).foldl IosnoopProbes.fire (.fresh cfg) =
        (originals gs).foldl IosnoopProbes.fire (.fresh cfg) ∧
      (gs.map Prod.fst).foldl IoslowerProbes.fire (.fresh threshold cfg) =
        (originals gs).foldl IoslowerProbes.fire (.fresh threshold cfg) := by
  refine ⟨fun f hf => ?_, iosnoop_echoes h.echoed _, ioslower_echoes h.echoed _⟩
  obtain ⟨c, hook, ret, rfl, hmany⟩ := h.programs f hf
  obtain rfl := one_lt_returnPrograms hmany
  exact ⟨c, ret, rfl⟩

/-- Another thread removes a directory while the second program of a rename is due. -/
def renameTwice : List (Firing × Bool) :=
  [(.enter (.roomy 7 10) (.vfsRename (some ⟨none, some ⟨some ⟨0x800001⟩⟩, none⟩)), false),
    (.leave (.roomy 7 20) .vfsRename 0, false),
    (.enter (.roomy 9 21) (.vfsRmdir (some ⟨some ⟨0x800001⟩⟩) none), false),
    (.leave (.roomy 7 22) .vfsRename 0, true), (.leave (.roomy 9 23) .vfsRmdir 0, false)]

theorem plays_renameTwice : Plays withoutBtf renameTwice where
  echoed := by
    refine @echoed_single _ Repeats Apart [_] [_] [_] _ _ ⟨_, _, _, _, rfl, rfl, rfl⟩ ?_
    simp [Apart, Firing.context, ProbeContext.roomy]
  programs f hf := by
    have hf' : f = .leave (.roomy 7 22) .vfsRename 0 := by simpa [renameTwice] using hf
    exact ⟨_, _, _, hf', by decide +kernel⟩

theorem duplicates_inert_renameTwice :
    ((originals renameTwice).foldl IosnoopProbes.fire (.fresh ⟨0, 0, 0⟩)).events.length = 2 ∧
      (renameTwice.map Prod.fst).foldl IosnoopProbes.fire (.fresh ⟨0, 0, 0⟩) =
        (originals renameTwice).foldl IosnoopProbes.fire (.fresh ⟨0, 0, 0⟩) ∧
      (renameTwice.map Prod.fst).foldl IoslowerProbes.fire (.fresh 0 ⟨0, 0, 0⟩) =
        (originals renameTwice).foldl IoslowerProbes.fire (.fresh 0 ⟨0, 0, 0⟩) :=
  ⟨by decide +kernel, (duplicates_inert plays_renameTwice ⟨0, 0, 0⟩ 0).2⟩

end MonitoringTools.DuplicateReturns
