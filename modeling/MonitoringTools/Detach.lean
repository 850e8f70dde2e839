import Mathlib.Data.Finset.Basic
import Mathlib.Data.List.Count
import Mathlib.Logic.Function.Basic
import Mathlib.Tactic.Common

/-!
# Detaching from the consumers

Both consumers carry the same function: it unpins the links of the tools that were
named, or of all, and then the ring buffer unless a link of another tool exists. An
attempt to unlink a path may be refused for a reason of the system, and then leaves
the file in place; a later attempt on the same path may fare otherwise.
-/
namespace MonitoringTools.Detach

/-- The pinned link paths of the tools. -/
def toolLinks : List (String × List String) :=
  [("smb", ["/sys/fs/bpf/aod_smb_mid_alloc", "/sys/fs/bpf/aod_smb_mid_release"]),
    ("nfs", ["/sys/fs/bpf/aod_nfs_seq_setup", "/sys/fs/bpf/aod_nfs_rpc_exit"])]

def ringbufPinned : String := "/sys/fs/bpf/aodrb"

inductive Message where
  | unpinned (path : String)
  | failed (path : String)
  | unknownTool (tool : String)
  | ringBufferKept
  | completed (withErrors : Bool)
  deriving DecidableEq, Repr

/-- The files that exist, how often each path was tried, and what was counted and
printed so far. -/
structure State where
  files : Finset String
  tries : String → ℕ
  errors : ℕ
  log : List Message

section
variable (refuses : String → ℕ → Bool)

/-- One `os.unlink`; whether the system refuses it depends on the path and on the
number of the attempt. -/
def State.unlink (s : State) (path : String) : State :=
  let tried := {s with tries := Function.update s.tries path (s.tries path + 1)}
  if refuses path (s.tries path) then
    {tried with errors := s.errors + 1, log := s.log ++ [.failed path]}
  else if path ∈ s.files then
    {tried with files := s.files.erase path, log := s.log ++ [.unpinned path]}
  else tried

def State.unpinTool (s : State) (tool : String) : State :=
  match toolLinks.lookup tool with
  | none | some [] => {s with errors := s.errors + 1, log := s.log ++ [.unknownTool tool]}
  | some links => links.foldl (State.unlink refuses) s

/-- The tools that are named, or all of them. -/
def targets (tools : List String) : List String :=
  if tools = [] then toolLinks.map Prod.fst else tools

/-- The links of the tools that are not detached. -/
def remaining (targets : List String) : List String :=
  toolLinks.flatMap fun (tool, paths) => if tool ∈ targets then [] else paths

def detach (files : Finset String) (tools : List String) : State × ℤ :=
  let s := (targets tools).foldl (State.unpinTool refuses) ⟨files, fun _ => 0, 0, []⟩
  let s :=
    if ∃ p ∈ remaining (targets tools), p ∈ s.files then
      {s with log := s.log ++ [.ringBufferKept]}
    else s.unlink refuses ringbufPinned
  let failed := s.errors ≠ 0
  ({s with log := s.log ++ [.completed failed]}, if failed then 1 else 0)

end

def allLinks : List String := toolLinks.flatMap Prod.snd

def linksOf (tool : String) : List String := (toolLinks.lookup tool).getD []

/-- The paths that the loop tries, one entry for each attempt. -/
def requested (targets : List String) : List String := targets.flatMap linksOf

structure Safe (refuses : String → ℕ → Bool) (files : Finset String) (tools : List String) :
    Prop where
  /-- Without the ring buffer there is no link. -/
  ring : ringbufPinned ∈ files → ringbufPinned ∉ (detach refuses files tools).1.files →
    ∀ p ∈ allLinks, p ∉ (detach refuses files tools).1.files
  /-- Zero means that all names are known and all their links are gone. -/
  zero : (detach refuses files tools).2 = 0 →
    (∀ tool ∈ tools, (toolLinks.lookup tool).isSome = true) ∧
      ∀ p ∈ requested (targets tools), p ∉ (detach refuses files tools).1.files

/-- A link of a tool that is detached stays, as every attempt on it is refused, while no
link of another tool keeps the ring buffer. -/
def Stuck (refuses : String → ℕ → Bool) (files : Finset String) (tools : List String) : Prop :=
  ringbufPinned ∈ files ∧ refuses ringbufPinned 0 = false ∧
    (∀ p ∈ remaining (targets tools), p ∉ files) ∧
    ∃ p ∈ requested (targets tools), p ∈ files ∧
      ∀ k < (requested (targets tools)).count p, refuses p k = true

section
variable {refuses : String → ℕ → Bool}

theorem forall_lt_add {P : ℕ → Prop} {a b : ℕ} :
    (∀ k < a + b, P k) ↔ (∀ k < a, P k) ∧ ∀ k < b, P (a + k) := by
  refine ⟨fun h => ⟨fun k hk => h k (by omega), fun k hk => h (a + k) (by omega)⟩, ?_⟩
  rintro ⟨hlow, hhigh⟩ k hk
  by_cases hka : k < a
  · exact hlow k hka
  · obtain ⟨j, rfl⟩ := Nat.exists_eq_add_of_le (not_lt.mp hka)
    exact hhigh j (by omega)

theorem State.mem_unlink {s : State} {path p : String} : p ∈ (s.unlink refuses path).files ↔
    p ∈ s.files ∧ (p = path → refuses p (s.tries p) = true) := by
  rw [State.unlink]
  split
  next hrefused => simp +contextual [hrefused]
  next hallowed =>
      split
      next =>
          rw [Finset.mem_erase]
          constructor
          · rintro ⟨hne, hp⟩
            exact ⟨hp, fun heq => absurd heq hne⟩
          · rintro ⟨hp, himp⟩
            refine ⟨?_, hp⟩
            rintro rfl
            exact hallowed (himp rfl)
      next habsent =>
          refine ⟨fun hp => ⟨hp, ?_⟩, And.left⟩
          rintro rfl
          exact absurd hp habsent

theorem State.tries_unlink (s : State) (path p : String) :
    (s.unlink refuses path).tries p = s.tries p + [path].count p := by
  have htries : (s.unlink refuses path).tries =
      Function.update s.tries path (s.tries path + 1) := by
    rw [State.unlink]
    split_ifs <;> rfl
  rw [htries, Function.update_apply, List.count_singleton]
  by_cases h : p = path
  · subst h
    simp
  · simp [h, Ne.symm h]

theorem count_cons_eq (path p : String) (paths : List String) :
    (path :: paths).count p = [path].count p + paths.count p := by
  rw [← List.count_append, List.singleton_append]

theorem State.tries_unlinks (s : State) (paths : List String) (p : String) :
    (paths.foldl (State.unlink refuses) s).tries p = s.tries p + paths.count p := by
  induction paths generalizing s with
  | nil => rfl
  | cons path paths ih =>
      rw [List.foldl_cons, ih, State.tries_unlink, count_cons_eq path p paths, Nat.add_assoc]

theorem State.mem_unlinks {s : State} {paths : List String} {p : String} :
    p ∈ (paths.foldl (State.unlink refuses) s).files ↔
      p ∈ s.files ∧ ∀ k < paths.count p, refuses p (s.tries p + k) = true := by
  induction paths generalizing s with
  | nil => simp
  | cons path paths ih =>
      rw [List.foldl_cons, ih, State.mem_unlink, State.tries_unlink, count_cons_eq path p paths,
        forall_lt_add, and_assoc]
      refine and_congr_right fun _ => and_congr ?_ (by simp only [Nat.add_assoc])
      rw [List.count_singleton]
      by_cases h : p = path
      · subst h
        simp
      · simp [h, Ne.symm h]

theorem State.unpinTool_eq (s : State) (tool : String) :
    (s.unpinTool refuses tool).files = ((linksOf tool).foldl (State.unlink refuses) s).files ∧
      (s.unpinTool refuses tool).tries = ((linksOf tool).foldl (State.unlink refuses) s).tries := by
  rw [State.unpinTool, linksOf]
  split
  next h => rw [h]; exact ⟨rfl, rfl⟩
  next h => rw [h]; exact ⟨rfl, rfl⟩
  next h => rw [h]; exact ⟨rfl, rfl⟩

theorem State.tries_unpin (s : State) (tools : List String) (p : String) :
    (tools.foldl (State.unpinTool refuses) s).tries p = s.tries p + (requested tools).count p := by
  induction tools generalizing s with
  | nil => rfl
  | cons tool tools ih =>
      rw [List.foldl_cons, ih, (State.unpinTool_eq s tool).2, State.tries_unlinks, requested,
        requested, List.flatMap_cons, List.count_append, Nat.add_assoc]

/-- After the loop a file is left when every attempt on it was refused. -/
theorem State.mem_unpin {s : State} {tools : List String} {p : String} :
    p ∈ (tools.foldl (State.unpinTool refuses) s).files ↔
      p ∈ s.files ∧ ∀ k < (requested tools).count p, refuses p (s.tries p + k) = true := by
  induction tools generalizing s with
  | nil => simp [requested]
  | cons tool tools ih =>
      have htool := @State.unpinTool_eq refuses s tool
      rw [List.foldl_cons, ih, htool.1, htool.2, State.mem_unlinks, State.tries_unlinks, requested,
        requested, List.flatMap_cons, List.count_append, forall_lt_add, and_assoc]
      simp only [Nat.add_assoc]

theorem State.errors_unlink {s : State} {path : String}
    (h : (s.unlink refuses path).errors = 0) :
    s.errors = 0 ∧ refuses path (s.tries path) = false := by
  rw [State.unlink] at h
  split at h
  next => cases h
  next hallowed =>
      refine ⟨?_, by simpa using hallowed⟩
      split at h <;> exact h

theorem State.errors_unlinks {s : State} {paths : List String}
    (h : (paths.foldl (State.unlink refuses) s).errors = 0) :
    s.errors = 0 ∧ ∀ p ∈ paths, refuses p (s.tries p) = false := by
  induction paths generalizing s with
  | nil => exact ⟨h, fun _ hp => absurd hp List.not_mem_nil⟩
  | cons path paths ih =>
      obtain ⟨hnext, hrest⟩ := ih h
      obtain ⟨hnone, hfirst⟩ := State.errors_unlink hnext
      refine ⟨hnone, fun p hp => ?_⟩
      by_cases heq : p = path
      · rw [heq, hfirst]
      · have hp' := hrest p ((List.mem_cons.mp hp).resolve_left heq)
        have hcount : [path].count p = 0 := List.count_eq_zero.mpr (by simpa using heq)
        rwa [State.tries_unlink, hcount] at hp'

theorem State.errors_unpinTool {s : State} {tool : String}
    (h : (s.unpinTool refuses tool).errors = 0) : s.errors = 0 ∧
      (toolLinks.lookup tool).isSome = true ∧ ∀ p ∈ linksOf tool, refuses p (s.tries p) = false := by
  rw [State.unpinTool] at h
  split at h
  next => cases h
  next => cases h
  next links hne hlinks =>
      obtain ⟨hnone, hall⟩ := State.errors_unlinks h
      rw [linksOf, hlinks]
      exact ⟨hnone, rfl, hall⟩

/-- Without an error every name is known and no first attempt was refused. -/
theorem State.errors_unpin {s : State} {tools : List String}
    (h : (tools.foldl (State.unpinTool refuses) s).errors = 0) : s.errors = 0 ∧
      (∀ tool ∈ tools, (toolLinks.lookup tool).isSome = true) ∧
        ∀ p ∈ requested tools, refuses p (s.tries p) = false := by
  induction tools generalizing s with
  | nil =>
      exact ⟨h, fun _ hp => absurd hp List.not_mem_nil, fun _ hp => absurd hp List.not_mem_nil⟩
  | cons tool tools ih =>
      obtain ⟨hnext, hknown, hrest⟩ := ih h
      obtain ⟨hnone, hfirst, hlinks⟩ := State.errors_unpinTool hnext
      refine ⟨hnone, List.forall_mem_cons.mpr ⟨hfirst, hknown⟩, fun p hp => ?_⟩
      by_cases hmem : p ∈ linksOf tool
      · exact hlinks p hmem
      · have hp' := hrest p ((List.mem_append.mp hp).resolve_left hmem)
        rwa [(State.unpinTool_eq s tool).2, State.tries_unlinks, List.count_eq_zero.mpr hmem] at hp'

theorem mem_linksOf {tool p : String} : p ∈ linksOf tool ↔
    tool = "smb" ∧ p ∈ linksOf "smb" ∨ tool = "nfs" ∧ p ∈ linksOf "nfs" := by
  by_cases hsmb : tool = "smb"
  · subst hsmb
    simp
  · by_cases hnfs : tool = "nfs"
    · subst hnfs
      simp
    · have hunknown : toolLinks.lookup tool = none := by
        rw [List.lookup_eq_none_iff]
        simp [toolLinks, hsmb, hnfs]
      simp [linksOf, hunknown, hsmb, hnfs]

theorem linksOf_disjoint : ∀ p ∈ linksOf "smb", p ∉ linksOf "nfs" := by decide

theorem mem_remaining_iff {targets : List String} {p : String} (hp : p ∈ allLinks) :
    p ∈ remaining targets ↔ p ∉ requested targets := by
  have hrequested : p ∈ requested targets ↔
      "smb" ∈ targets ∧ p ∈ linksOf "smb" ∨ "nfs" ∈ targets ∧ p ∈ linksOf "nfs" := by
    rw [requested, List.mem_flatMap]
    constructor
    · rintro ⟨tool, htool, hlinks⟩
      obtain ⟨rfl, h⟩ | ⟨rfl, h⟩ := mem_linksOf.mp hlinks
      · exact .inl ⟨htool, h⟩
      · exact .inr ⟨htool, h⟩
    · rintro (⟨htool, h⟩ | ⟨htool, h⟩)
      · exact ⟨_, htool, h⟩
      · exact ⟨_, htool, h⟩
  have hremaining : p ∈ remaining targets ↔
      "smb" ∉ targets ∧ p ∈ linksOf "smb" ∨ "nfs" ∉ targets ∧ p ∈ linksOf "nfs" := by
    have heq : remaining targets = (if "smb" ∈ targets then [] else linksOf "smb") ++
        ((if "nfs" ∈ targets then [] else linksOf "nfs") ++ []) := rfl
    rw [heq, List.append_nil, List.mem_append]
    split_ifs with hsmb hnfs hnfs <;> simp [hsmb, hnfs]
  have hall : p ∈ linksOf "smb" ∨ p ∈ linksOf "nfs" := by
    have heq : allLinks = linksOf "smb" ++ (linksOf "nfs" ++ []) := rfl
    rwa [heq, List.append_nil, List.mem_append] at hp
  rw [hrequested, hremaining]
  rcases hall with hsmb | hnfs
  · simp [hsmb, linksOf_disjoint p hsmb]
  · have hnot : p ∉ linksOf "smb" := fun hsmb => linksOf_disjoint p hsmb hnfs
    simp [hnfs, hnot]

theorem requested_subset {targets : List String} : ∀ p ∈ requested targets, p ∈ allLinks := by
  intro p hp
  obtain ⟨tool, -, hlinks⟩ := List.mem_flatMap.mp hp
  have heq : allLinks = linksOf "smb" ++ (linksOf "nfs" ++ []) := rfl
  rw [heq, List.append_nil, List.mem_append]
  exact (mem_linksOf.mp hlinks).imp And.right And.right

theorem ring_not_mem_allLinks : ringbufPinned ∉ allLinks := by decide

theorem remaining_subset {targets : List String} : ∀ p ∈ remaining targets, p ∈ allLinks := by
  intro p hp
  obtain ⟨⟨tool, paths⟩, hmem, hin⟩ := List.mem_flatMap.mp hp
  refine List.mem_flatMap.mpr ⟨(tool, paths), hmem, ?_⟩
  dsimp only at hin
  split at hin
  next => exact absurd hin List.not_mem_nil
  next => exact hin

section
variable (refuses : String → ℕ → Bool) (files : Finset String) (tools : List String)

/-- The state after the loop. -/
def unpinned : State := (targets tools).foldl (State.unpinTool refuses) ⟨files, fun _ => 0, 0, []⟩

theorem mem_unpinned {p : String} : p ∈ (unpinned refuses files tools).files ↔
    p ∈ files ∧ ∀ k < (requested (targets tools)).count p, refuses p k = true := by
  rw [unpinned, State.mem_unpin]
  simp only [Nat.zero_add]

theorem mem_unpinned_of_not_requested {p : String} (h : p ∉ requested (targets tools)) :
    p ∈ (unpinned refuses files tools).files ↔ p ∈ files := by
  rw [mem_unpinned, List.count_eq_zero.mpr h]
  simp

/-- Some link of another tool keeps the ring buffer. -/
def Kept : Prop := ∃ p ∈ remaining (targets tools), p ∈ files

theorem kept_iff : (∃ p ∈ remaining (targets tools), p ∈ (unpinned refuses files tools).files) ↔
    Kept files tools := by
  refine exists_congr fun p => and_congr_right fun hp => ?_
  exact mem_unpinned_of_not_requested refuses files tools
    ((mem_remaining_iff (remaining_subset p hp)).mp hp)

theorem mem_detach {p : String} : p ∈ (detach refuses files tools).1.files ↔
    p ∈ (unpinned refuses files tools).files ∧
      (¬ Kept files tools → p = ringbufPinned → refuses ringbufPinned 0 = true) := by
  have htries : (unpinned refuses files tools).tries ringbufPinned = 0 := by
    rw [unpinned, State.tries_unpin, List.count_eq_zero.mpr fun h =>
      ring_not_mem_allLinks (requested_subset _ h)]
  have hkept := kept_iff refuses files tools
  rw [unpinned] at hkept htries ⊢
  rw [detach]
  split
  next h => simp [hkept.mp h]
  next h =>
      have hnot : ¬ Kept files tools := fun hk => h (hkept.mpr hk)
      dsimp only
      rw [State.mem_unlink]
      refine and_congr_right fun _ => ?_
      constructor
      · rintro himp - rfl
        have hrefused := himp rfl
        rwa [htries] at hrefused
      · rintro himp rfl
        rw [htries]
        exact himp hnot rfl

theorem detach_zero (h : (detach refuses files tools).2 = 0) :
    (unpinned refuses files tools).errors = 0 := by
  by_cases hkept : ∃ p ∈ remaining (targets tools), p ∈ (unpinned refuses files tools).files
  · rw [unpinned] at hkept ⊢
    simpa [detach, if_pos hkept] using h
  · rw [unpinned] at hkept ⊢
    simp only [detach, if_neg hkept] at h
    split at h
    next => cases h
    next herrors => exact (State.errors_unlink (not_not.mp herrors)).1

/-- The function is safe unless a link of a tool that it detaches is stuck while nothing
else keeps the ring buffer. -/
theorem safe_iff : Safe refuses files tools ↔ ¬ Stuck refuses files tools := by
  have hlink : ∀ p ∈ allLinks, p ∈ (detach refuses files tools).1.files ↔
      p ∈ (unpinned refuses files tools).files := by
    intro p hp
    rw [mem_detach, and_iff_left]
    rintro - rfl
    exact absurd hp ring_not_mem_allLinks
  have hring : ringbufPinned ∈ (detach refuses files tools).1.files ↔ ringbufPinned ∈ files ∧
      (¬ Kept files tools → refuses ringbufPinned 0 = true) := by
    have hnot : ringbufPinned ∉ requested (targets tools) := fun h =>
      ring_not_mem_allLinks (requested_subset _ h)
    rw [mem_detach, mem_unpinned_of_not_requested refuses files tools hnot]
    simp
  constructor
  · rintro hsafe ⟨hpin, hallowed, hnone, p, hp, hfile, hrefused⟩
    have hkept : ¬ Kept files tools := by
      rintro ⟨q, hq, hqfile⟩
      exact hnone q hq hqfile
    have hgone : ringbufPinned ∉ (detach refuses files tools).1.files := by
      rw [hring]
      rintro ⟨-, himp⟩
      rw [himp hkept] at hallowed
      cases hallowed
    have hall := requested_subset p hp
    refine hsafe.ring hpin hgone p hall ((hlink p hall).mpr ?_)
    exact (mem_unpinned refuses files tools).mpr ⟨hfile, hrefused⟩
  · intro hstuck
    refine ⟨fun hpin hgone p hp hleft => hstuck ?_, fun hzero => ?_⟩
    · rw [hlink p hp, mem_unpinned] at hleft
      have himp : ¬ (¬ Kept files tools → refuses ringbufPinned 0 = true) := fun h =>
        hgone (hring.mpr ⟨hpin, h⟩)
      obtain ⟨hkept, hallowed⟩ := Classical.not_imp.mp himp
      have hnone : ∀ q ∈ remaining (targets tools), q ∉ files := fun q hq hfile =>
        hkept ⟨q, hq, hfile⟩
      have hrequested : p ∈ requested (targets tools) := by
        by_contra hnot
        exact hnone p ((mem_remaining_iff hp).mpr hnot) hleft.1
      exact ⟨hpin, by simpa using hallowed, hnone, p, hrequested, hleft⟩
    · have herrors := detach_zero refuses files tools hzero
      obtain ⟨-, hknown, hallowed⟩ := State.errors_unpin herrors
      refine ⟨fun tool htool => hknown tool ?_, fun p hp hleft => ?_⟩
      · rw [targets]
        split
        next hnil =>
            rw [hnil] at htool
            exact absurd htool List.not_mem_nil
        next => exact htool
      · rw [hlink p (requested_subset p hp), mem_unpinned] at hleft
        have hfirst := hleft.2 0 (List.count_pos_iff.mpr hp)
        rw [hallowed p hp] at hfirst
        cases hfirst

end

/-- The system refuses every attempt to unlink the first link of smb. -/
def stuckLink : String → ℕ → Bool := fun path _ => path == "/sys/fs/bpf/aod_smb_mid_alloc"

theorem safe_fails_stuckLink : ¬ ∀ (refuses : String → ℕ → Bool) (files : Finset String)
    (tools : List String), Safe refuses files tools := by
  intro h
  have hring := (h stuckLink {ringbufPinned, "/sys/fs/bpf/aod_smb_mid_alloc"} ["smb"]).ring
    (by decide) (by decide +kernel) "/sys/fs/bpf/aod_smb_mid_alloc" (by decide)
  exact hring (by decide +kernel)

end

end MonitoringTools.Detach
