import MonitoringTools.Detach
import MonitoringTools.Runs
import MonitoringTools.WakeupBatching

/-!
# The pinned ring over the life of the tools

A loader uses the ring that the path names; where there is none it creates one and pins it
there. Consumers open the path. The path stays when the loaders and consumers are gone:
only a detach removes it, and those who have a ring keep it all the same.
-/
namespace MonitoringTools.RingSharing
open Detach Runs
open WakeupBatching (Tool maxEntries)

structure MapDef where
  mapType : ℕ
  keySize : ℕ
  valueSize : ℕ
  maxEntries : ℕ
  mapFlags : ℕ
  deriving DecidableEq, Repr

/-- `BPF_MAP_TYPE_RINGBUF`. -/
def ringbuf : ℕ := 27

/-- The map `aodrb` of each object. -/
def aodrb : Tool → MapDef
  | .smbslower => ⟨ringbuf, 0, 0, maxEntries * 4096, 0⟩
  | .nfsslower => ⟨ringbuf, 0, 0, maxEntries * 4096, 0⟩
  | .smbiosnoop => ⟨ringbuf, 0, 0, maxEntries * 4096, 0⟩
  | .nfsiosnoop => ⟨ringbuf, 0, 0, maxEntries * 4096, 0⟩

/-- Maps are numbered as they are created. -/
structure Ring where
  id : ℕ
  kind : MapDef
  deriving DecidableEq, Repr

structure BpfFs where
  ring : Option Ring
  links : Finset String
  apart : ringbufPinned ∉ links

def BpfFs.files (fs : BpfFs) : Finset String :=
  if fs.ring.isSome then insert ringbufPinned fs.links else fs.links

/-- The file system with these of its files. -/
def BpfFs.leave (fs : BpfFs) (files : Finset String) : BpfFs where
  ring := if ringbufPinned ∈ files then fs.ring else none
  links := files.erase ringbufPinned
  apart := Finset.notMem_erase _ _

structure World where
  fs : BpfFs
  created : ℕ
  loaders : ℕ → Option (Tool × Ring)
  consumers : ℕ → Option Ring

/-- No process of the tools runs. A ring that is pinned is the last one created. -/
def World.start (fs : BpfFs) : World where
  fs := fs
  created := (fs.ring.map fun ring => ring.id + 1).getD 0
  loaders := fun _ => none
  consumers := fun _ => none

inductive Move where
  /-- A loader runs up to its pause; the load and the steps after it may fail. -/
  | load (pid : ℕ) (tool : Tool) (loads attaches : Bool)
  | stop (pid : ℕ)
  /-- A consumer starts; the system may be out of memory. -/
  | rbOpen (pid : ℕ) (allocated : Bool)
  | rbClose (pid : ℕ)
  | detach (refuses : String → ℕ → Bool) (tools : List String)

/-- The steps after the load, up to the pause. -/
def World.enter (w : World) (pid : ℕ) (tool : Tool) (ring : Ring) (attaches : Bool) : World :=
  if attaches then {w with loaders := Function.update w.loaders pid (some (tool, ring))} else w

/-- A load that succeeds leaves its map pinned even if a later step of the loader fails; one
that fails removes what it pinned. -/
def World.load (w : World) (pid : ℕ) (tool : Tool) (loads attaches : Bool) : World :=
  if loads then
    match w.fs.ring with
    | some ring => if ring.kind = aodrb tool then w.enter pid tool ring attaches else w
    | none =>
        let ring : Ring := ⟨w.created, aodrb tool⟩
        {w with fs := {w.fs with ring := some ring}, created := w.created + 1}.enter
          pid tool ring attaches
  else w

/-- A ring buffer manager is made for a ring only. -/
def World.rbOpen (w : World) (pid : ℕ) (allocated : Bool) : World :=
  match w.fs.ring with
  | none => w
  | some ring =>
      if allocated ∧ ring.kind.mapType = ringbuf then
        {w with consumers := Function.update w.consumers pid (some ring)}
      else w

def World.detach (w : World) (refuses : String → ℕ → Bool) (tools : List String) : World :=
  {w with fs := w.fs.leave (Detach.detach refuses w.fs.files tools).1.files}

/-- A process starts under a number that is free. -/
def step (w : World) : Move → Option World
  | .load pid tool loads attaches =>
      if (w.loaders pid).isSome then none else some (w.load pid tool loads attaches)
  | .stop pid => some {w with loaders := Function.update w.loaders pid none}
  | .rbOpen pid allocated =>
      if (w.consumers pid).isSome then none else some (w.rbOpen pid allocated)
  | .rbClose pid => some {w with consumers := Function.update w.consumers pid none}
  | .detach refuses tools => some (w.detach refuses tools)

inductive Member where
  | loader (pid : ℕ)
  | consumer (pid : ℕ)
  deriving DecidableEq, Repr

def World.ringOf (w : World) : Member → Option Ring
  | .loader pid => (w.loaders pid).map Prod.snd
  | .consumer pid => w.consumers pid

def Member.leave : Member → Move
  | .loader pid => .stop pid
  | .consumer pid => .rbClose pid

def Move.enters : Move → Bool
  | .load .. | .rbOpen .. => true
  | .stop _ | .rbClose _ | .detach .. => false

structure Joins (x : Member) (w : World) (m : Move) (u : World) : Prop where
  step : step w m = some u
  outside : w.ringOf x = none
  inside : (u.ringOf x).isSome = true

/-- The move leaves the path in place: it is no detach, or one whose attempt on the ring is
refused, or a link of a tool that it spares is pinned. -/
def Keeps (w : World) : Move → Prop
  | .detach refuses tools => refuses ringbufPinned 0 = true ∨ Kept w.fs.links tools
  | _ => True

/-- The move is no detach, or one whose attempt on the ring is refused. -/
def Move.Refused : Move → Prop
  | .detach refuses _ => refuses ringbufPinned 0 = true
  | _ => True

instance (w : World) : DecidablePred (Keeps w)
  | .detach _ tools => inferInstanceAs (Decidable (_ ∨ ∃ p ∈ remaining (targets tools), _))
  | .load .. | .stop _ | .rbOpen .. | .rbClose _ => .isTrue trivial

section
variable {fs : BpfFs} {w u : World} {m : Move}

@[simp] theorem enter_fs (w : World) (pid : ℕ) (tool : Tool) (ring : Ring) (attaches : Bool) :
    (w.enter pid tool ring attaches).fs = w.fs := by
  rw [World.enter]
  split <;> rfl

@[simp] theorem enter_created (w : World) (pid : ℕ) (tool : Tool) (ring : Ring)
    (attaches : Bool) : (w.enter pid tool ring attaches).created = w.created := by
  rw [World.enter]
  split <;> rfl

@[simp] theorem rbOpen_fs (w : World) (pid : ℕ) (allocated : Bool) :
    (w.rbOpen pid allocated).fs = w.fs := by
  unfold World.rbOpen
  split
  next => rfl
  next => split <;> rfl

@[simp] theorem rbOpen_created (w : World) (pid : ℕ) (allocated : Bool) :
    (w.rbOpen pid allocated).created = w.created := by
  unfold World.rbOpen
  split
  next => rfl
  next => split <;> rfl

@[simp] theorem load_links (w : World) (pid : ℕ) (tool : Tool) (loads attaches : Bool) :
    (w.load pid tool loads attaches).fs.links = w.fs.links := by
  unfold World.load
  split
  next =>
      split
      next => split <;> simp
      next => simp
  next => rfl

theorem ringbufPinned_mem_files : ringbufPinned ∈ fs.files ↔ fs.ring.isSome = true := by
  rw [BpfFs.files]
  split
  next h => simp [h]
  next h => simp [h, fs.apart]

theorem mem_files {p : String} (hp : p ≠ ringbufPinned) : p ∈ fs.files ↔ p ∈ fs.links := by
  rw [BpfFs.files]
  split
  next => simp [hp]
  next => rfl

theorem kept_files {tools : List String} : Kept fs.files tools ↔ Kept fs.links tools := by
  refine exists_congr fun p => and_congr_right fun hp => mem_files ?_
  rintro rfl
  exact ring_not_mem_allLinks (remaining_subset _ hp)

theorem mem_detach_ring {refuses : String → ℕ → Bool} {tools : List String} :
    ringbufPinned ∈ (Detach.detach refuses fs.files tools).1.files ↔
      fs.ring.isSome = true ∧ (refuses ringbufPinned 0 = true ∨ Kept fs.links tools) := by
  have hnot : ringbufPinned ∉ requested (targets tools) := fun h =>
    ring_not_mem_allLinks (requested_subset _ h)
  rw [mem_detach, mem_unpinned_of_not_requested refuses _ tools hnot, ringbufPinned_mem_files,
    kept_files]
  refine and_congr_right fun _ => ?_
  by_cases hkept : Kept fs.links tools <;> simp [hkept]

theorem links_detach (w : World) (refuses : String → ℕ → Bool) (tools : List String) :
    (w.detach refuses tools).fs.links ⊆ w.fs.links := by
  intro p hp
  obtain ⟨hne, hleft⟩ := Finset.mem_erase.mp hp
  exact (mem_files hne).mp
    ((mem_unpinned refuses _ tools).mp ((mem_detach refuses _ tools).mp hleft).1).1

inductive PathStep (w : World) (m : Move) (u : World) : Prop
  | same (keeps : Keeps w m) (ring : u.fs.ring = w.fs.ring) (created : u.created = w.created)
  | pinned (keeps : Keeps w m) (absent : w.fs.ring = none) (tool : Tool)
      (ring : u.fs.ring = some ⟨w.created, aodrb tool⟩) (created : u.created = w.created + 1)
  | removed (removes : ¬ Keeps w m) (ring : u.fs.ring = none) (created : u.created = w.created)

theorem pathStep_load (pid : ℕ) (tool : Tool) (loads attaches : Bool) :
    PathStep w (.load pid tool loads attaches) (w.load pid tool loads attaches) := by
  unfold World.load
  split
  next =>
      split
      next ring hring =>
          split
          · exact .same trivial (by simp) (by simp)
          · exact .same trivial rfl rfl
      next hnone => exact .pinned trivial hnone tool (by simp) (by simp)
  next => exact .same trivial rfl rfl

theorem pathStep_detach (w : World) (refuses : String → ℕ → Bool) (tools : List String) :
    PathStep w (.detach refuses tools) (w.detach refuses tools) := by
  by_cases hkeeps : refuses ringbufPinned 0 = true ∨ Kept w.fs.links tools
  · refine .same hkeeps ?_ rfl
    by_cases hring : w.fs.ring.isSome = true
    · exact if_pos (mem_detach_ring.mpr ⟨hring, hkeeps⟩)
    · rw [Option.not_isSome_iff_eq_none.mp hring]
      exact (if_neg fun h => hring (mem_detach_ring.mp h).1).trans rfl
  · exact .removed hkeeps (if_neg fun h => hkeeps (mem_detach_ring.mp h).2) rfl

theorem pathStep (h : step w m = some u) : PathStep w m u := by
  cases m with
  | load pid tool loads attaches =>
      obtain ⟨-, hload⟩ := Option.ite_none_left_eq_some.mp h
      cases hload
      exact pathStep_load pid tool loads attaches
  | stop pid =>
      cases h
      exact .same trivial rfl rfl
  | rbOpen pid allocated =>
      obtain ⟨-, hopen⟩ := Option.ite_none_left_eq_some.mp h
      cases hopen
      exact .same trivial (by simp) (by simp)
  | rbClose pid =>
      cases h
      exact .same trivial rfl rfl
  | detach refuses tools =>
      cases h
      exact pathStep_detach w refuses tools

theorem links_step (h : step w m = some u) : u.fs.links ⊆ w.fs.links := by
  cases m with
  | load pid tool loads attaches =>
      obtain ⟨-, hload⟩ := Option.ite_none_left_eq_some.mp h
      cases hload
      rw [load_links]
  | stop pid =>
      cases h
      exact Finset.Subset.refl _
  | rbOpen pid allocated =>
      obtain ⟨-, hopen⟩ := Option.ite_none_left_eq_some.mp h
      cases hopen
      rw [rbOpen_fs]
  | rbClose pid =>
      cases h
      exact Finset.Subset.refl _
  | detach refuses tools =>
      cases h
      exact links_detach w refuses tools

/-- The path names one ring from one removal to the next. -/
theorem named_path : Named step (fun w => w.fs.ring) (fun w ring => ring.id < w.created) Keeps where
  kept h hnamed hkeeps := by
    rcases pathStep h with ⟨-, hring, -⟩ | ⟨-, habsent, -, -, -⟩ | ⟨hremoves, -, -⟩
    · exact hring.trans hnamed
    · exact absurd (habsent.symm.trans hnamed) (by simp)
    · exact absurd hkeeps hremoves
  cleared h _ hremoves := by
    rcases pathStep h with ⟨hkeeps, -, -⟩ | ⟨hkeeps, -, -, -, -⟩ | ⟨-, hring, -⟩
    · exact absurd hkeeps hremoves
    · exact absurd hkeeps hremoves
    · simp [hring]
  renewed h hold hnamed := by
    rcases pathStep h with ⟨-, hring, -⟩ | ⟨-, -, tool, hring, -⟩ | ⟨-, hring, -⟩
    · exact hring.symm.trans hnamed
    · cases hring.symm.trans hnamed
      exact absurd hold (lt_irrefl _)
    · exact absurd (hring.symm.trans hnamed) (by simp)
  ages h hold := by
    rcases pathStep h with ⟨-, -, hcreated⟩ | ⟨-, -, -, -, hcreated⟩ | ⟨-, -, hcreated⟩ <;>
      omega

inductive MemberStep (x : Member) (w : World) (m : Move) (u : World) : Prop
  | same (ring : u.ringOf x = w.ringOf x)
  | joined (enters : m.enters = true) (outside : w.ringOf x = none)
      (ring : u.ringOf x = u.fs.ring)
  | left (leaves : m = x.leave) (ring : u.ringOf x = none)

theorem loaders_enter (w : World) (pid : ℕ) (tool : Tool) (ring : Ring) (attaches : Bool) :
    (w.enter pid tool ring attaches).loaders = w.loaders ∨
      (w.enter pid tool ring attaches).loaders =
        Function.update w.loaders pid (some (tool, ring)) := by
  rw [World.enter]
  split
  · exact .inr rfl
  · exact .inl rfl

theorem loaders_load (w : World) (pid : ℕ) (tool : Tool) (loads attaches : Bool) :
    (w.load pid tool loads attaches).loaders = w.loaders ∨
      ∃ ring, (w.load pid tool loads attaches).fs.ring = some ring ∧
        (w.load pid tool loads attaches).loaders =
          Function.update w.loaders pid (some (tool, ring)) := by
  unfold World.load
  split
  next =>
      split
      next ring hring =>
          split
          · refine (loaders_enter w pid tool ring attaches).imp_right fun h => ⟨ring, ?_, h⟩
            rw [enter_fs, hring]
          · exact .inl rfl
      next =>
          refine (loaders_enter _ pid tool _ attaches).imp_right fun h => ⟨_, ?_, h⟩
          rw [enter_fs]
  next => exact .inl rfl

@[simp] theorem consumers_load (w : World) (pid : ℕ) (tool : Tool) (loads attaches : Bool) :
    (w.load pid tool loads attaches).consumers = w.consumers := by
  have henter : ∀ (w : World) ring, (w.enter pid tool ring attaches).consumers =
      w.consumers := by
    intro w ring
    rw [World.enter]
    split <;> rfl
  unfold World.load
  split
  next =>
      split
      next => split <;> simp [henter]
      next => simp [henter]
  next => rfl

theorem consumers_rbOpen (w : World) (pid : ℕ) (allocated : Bool) :
    (w.rbOpen pid allocated).consumers = w.consumers ∨
      (w.rbOpen pid allocated).consumers = Function.update w.consumers pid w.fs.ring := by
  unfold World.rbOpen
  split
  next => exact .inl rfl
  next ring hring =>
      split
      · exact .inr (by rw [hring])
      · exact .inl rfl

@[simp] theorem loaders_rbOpen (w : World) (pid : ℕ) (allocated : Bool) :
    (w.rbOpen pid allocated).loaders = w.loaders := by
  unfold World.rbOpen
  split
  next => rfl
  next => split <;> rfl

theorem memberStep_loader (h : step w m = some u) (pid : ℕ) :
    MemberStep (.loader pid) w m u := by
  cases m with
  | load pid' tool loads attaches =>
      obtain ⟨hfree, hload⟩ := Option.ite_none_left_eq_some.mp h
      cases hload
      rcases loaders_load w pid' tool loads attaches with hsame | ⟨ring, hring, hupdate⟩
      · exact .same (by simp only [World.ringOf, hsame])
      · by_cases hpid : pid = pid'
        · subst hpid
          refine .joined rfl ?_ ?_
          · rw [World.ringOf, Option.not_isSome_iff_eq_none.mp hfree, Option.map_none]
          · rw [World.ringOf, hupdate, hring, Function.update_self, Option.map_some]
        · exact .same (by simp only [World.ringOf, hupdate, Function.update_of_ne hpid])
  | stop pid' =>
      cases h
      by_cases hpid : pid = pid'
      · subst hpid
        exact .left rfl (by simp [World.ringOf])
      · exact .same (by simp [World.ringOf, Function.update_of_ne hpid])
  | rbOpen pid' allocated =>
      obtain ⟨-, hopen⟩ := Option.ite_none_left_eq_some.mp h
      cases hopen
      exact .same (by simp [World.ringOf])
  | rbClose pid' =>
      cases h
      exact .same rfl
  | detach refuses tools =>
      cases h
      exact .same rfl

theorem memberStep_consumer (h : step w m = some u) (pid : ℕ) :
    MemberStep (.consumer pid) w m u := by
  cases m with
  | load pid' tool loads attaches =>
      obtain ⟨-, hload⟩ := Option.ite_none_left_eq_some.mp h
      cases hload
      exact .same (by simp [World.ringOf])
  | stop pid' =>
      cases h
      exact .same rfl
  | rbOpen pid' allocated =>
      obtain ⟨hfree, hopen⟩ := Option.ite_none_left_eq_some.mp h
      cases hopen
      rcases consumers_rbOpen w pid' allocated with hsame | hupdate
      · exact .same (by simp only [World.ringOf, hsame])
      · by_cases hpid : pid = pid'
        · subst hpid
          refine .joined rfl (Option.not_isSome_iff_eq_none.mp hfree) ?_
          rw [World.ringOf, hupdate, Function.update_self, rbOpen_fs]
        · exact .same (by simp only [World.ringOf, hupdate, Function.update_of_ne hpid])
  | rbClose pid' =>
      cases h
      by_cases hpid : pid = pid'
      · subst hpid
        exact .left rfl (by simp [World.ringOf])
      · exact .same (by simp [World.ringOf, Function.update_of_ne hpid])
  | detach refuses tools =>
      cases h
      exact .same rfl

theorem memberStep (h : step w m = some u) : (x : Member) → MemberStep x w m u
  | .loader pid => memberStep_loader h pid
  | .consumer pid => memberStep_consumer h pid

theorem Joins.entered {x : Member} (h : Joins x w m u) :
    m.enters = true ∧ u.ringOf x = u.fs.ring := by
  rcases memberStep h.step x with hsame | ⟨henters, -, hring⟩ | ⟨-, hnone⟩
  · exact absurd h.inside (by rw [hsame, h.outside]; simp)
  · exact ⟨henters, hring⟩
  · exact absurd h.inside (by rw [hnone]; simp)

theorem ne_leave_of_enters (h : m.enters = true) (x : Member) : m ≠ x.leave := by
  rintro rfl
  cases x <;> cases h

theorem keeps_of_enters (h : m.enters = true) : Keeps w m := by
  cases m with
  | load | rbOpen => trivial
  | stop | rbClose | detach => cases h

/-- A member that does not leave keeps its ring, whatever happens to the path. -/
theorem ringOf_step {x : Member} {ring : Ring} (h : step w m = some u)
    (hin : w.ringOf x = some ring) (hstays : m ≠ x.leave) : u.ringOf x = some ring := by
  rcases memberStep h x with hsame | ⟨-, houtside, -⟩ | ⟨hleaves, -⟩
  · exact hsame.trans hin
  · exact absurd (houtside.symm.trans hin) (by simp)
  · exact absurd hleaves hstays

theorem ringOf_run {x : Member} {ring : Ring} {ms : List Move} (hrun : run step w ms = some u)
    (hin : w.ringOf x = some ring) (hstays : x.leave ∉ ms) : u.ringOf x = some ring :=
  run_invariant (P := fun w => w.ringOf x = some ring) (C := fun m => m ≠ x.leave)
    (fun _ _ _ hin hne hstep => ringOf_step hstep hin hne) hrun hin
    fun _ hm heq => hstays (heq ▸ hm)

/-- The ring of the path has a number of its own. -/
def Numbered (w : World) : Prop := ∀ ring, w.fs.ring = some ring → ring.id < w.created

theorem numbered_start (fs : BpfFs) : Numbered (.start fs) := by
  intro ring hring
  have hfs : fs.ring = some ring := hring
  rw [World.start, hfs]
  exact Nat.lt_succ_self _

theorem numbered_step (hw : Numbered w) (h : step w m = some u) : Numbered u := by
  intro ring hring
  rcases pathStep h with ⟨-, hsame, hcreated⟩ | ⟨-, -, tool, hpinned, hcreated⟩ | ⟨-, hnone, -⟩
  · rw [hcreated]
    exact hw ring (hsame.symm.trans hring)
  · cases hpinned.symm.trans hring
    rw [hcreated]
    exact Nat.lt_succ_self _
  · exact absurd (hnone.symm.trans hring) (by simp)

theorem keeps_iff (hlinks : ∀ p ∈ allLinks, p ∉ w.fs.links) : Keeps w m ↔ m.Refused := by
  cases m with
  | detach refuses tools =>
      have hspared : ¬ Kept w.fs.links tools := fun ⟨p, hp, h⟩ =>
        hlinks p (remaining_subset p hp) h
      exact or_iff_left hspared
  | load | stop | rbOpen | rbClose => rfl

/-- Where no link is pinned, nothing but a refusal makes a detach spare the path. -/
theorem along_keeps_iff {ms : List Move} (hlinks : ∀ p ∈ allLinks, p ∉ w.fs.links)
    (hrun : run step w ms = some u) : Along step Keeps w ms ↔ ∀ m ∈ ms, m.Refused := by
  induction ms generalizing w with
  | nil => exact ⟨fun _ _ h => absurd h List.not_mem_nil, fun _ => trivial⟩
  | cons m ms ih =>
      rw [run_cons, Option.bind_eq_some_iff] at hrun
      obtain ⟨w', hstep, hrest⟩ := hrun
      have hrest' := ih (fun p hp h => hlinks p hp (links_step hstep h)) hrest
      rw [along_cons hstep, keeps_iff hlinks, hrest', List.forall_mem_cons]

theorem numbered_run {ms : List Move} (hrun : run step w ms = some u) (hw : Numbered w) :
    Numbered u :=
  run_preserves (fun _ _ _ h hstep => numbered_step h hstep) hrun hw

theorem links_run {ms : List Move} (hrun : run step w ms = some u) :
    u.fs.links ⊆ w.fs.links :=
  run_preserves (P := fun u => u.fs.links ⊆ w.fs.links)
    (fun _ _ _ h hstep => (links_step hstep).trans h) hrun (Finset.Subset.refl _)

/-- Whoever joined first, a loader or a consumer, has the ring of the one that joins later
if and only if the path stayed in place between the two. As no tool pins its links, every
detach in between takes the ring away from those who come later, whichever tools it names,
unless the system refuses. -/
theorem shares_iff {x y : Member} {fs : BpfFs} {before between : List Move}
    {w₀ w₁ w₂ w₃ : World} {m₁ m₂ : Move} (hbefore : run step (.start fs) before = some w₀)
    (hx : Joins x w₀ m₁ w₁) (hbetween : run step w₁ between = some w₂)
    (hstays : x.leave ∉ between) (hy : Joins y w₂ m₂ w₃) :
    (w₃.ringOf x = w₃.ringOf y ↔ Along step Keeps w₁ between) ∧
      ((∀ p ∈ allLinks, p ∉ fs.links) →
        (w₃.ringOf x = w₃.ringOf y ↔ ∀ m ∈ between, m.Refused)) := by
  obtain ⟨ring, hring⟩ := Option.isSome_iff_exists.mp hx.inside
  have hnamed : w₁.fs.ring = some ring := hx.entered.2.symm.trans hring
  have hold : ring.id < w₁.created :=
    numbered_step (numbered_run hbefore (numbered_start fs)) hx.step ring hnamed
  have hold₂ : ring.id < w₂.created :=
    run_preserves (P := fun w => ring.id < w.created)
      (fun _ _ _ h hstep => named_path.ages hstep h) hbetween hold
  have hmember : w₃.ringOf x = some ring :=
    ringOf_step hy.step (ringOf_run hbetween hring hstays) (ne_leave_of_enters hy.entered.1 x)
  have hpath : w₃.fs.ring = some ring ↔ w₂.fs.ring = some ring :=
    ⟨named_path.renewed hy.step hold₂,
      fun h => named_path.kept hy.step h (keeps_of_enters hy.entered.1)⟩
  have hshares : w₃.ringOf x = w₃.ringOf y ↔ Along step Keeps w₁ between := by
    rw [hmember, hy.entered.2, eq_comm, hpath]
    exact named_path.run_iff hbetween hold hnamed
  refine ⟨hshares, fun hlinks => hshares.trans (along_keeps_iff (fun p hp h => ?_) hbetween)⟩
  exact hlinks p hp (links_run hbefore (links_step hx.step h))

theorem aodrb_alike (tool tool' : Tool) : aodrb tool = aodrb tool' := by
  cases tool <;> cases tool' <;> rfl

/-- The path names nothing but a ring that each of the tools can use. -/
def Usable (w : World) : Prop := ∀ ring, w.fs.ring = some ring → ∀ tool, ring.kind = aodrb tool

theorem usable_step (hw : Usable w) (h : step w m = some u) : Usable u := by
  intro ring hring tool
  rcases pathStep h with ⟨-, hsame, -⟩ | ⟨-, -, tool', hpinned, -⟩ | ⟨-, hnone, -⟩
  · exact hw ring (hsame.symm.trans hring) tool
  · cases hpinned.symm.trans hring
    exact aodrb_alike tool' tool
  · exact absurd (hnone.symm.trans hring) (by simp)

/-- No tool keeps another one from starting. -/
theorem load_joins {ms : List Move} (hrun : run step (.start fs) ms = some w)
    (hfs : Usable (.start fs)) {pid : ℕ} (hfree : w.loaders pid = none) (tool : Tool) :
    Joins (.loader pid) w (.load pid tool true true) (w.load pid tool true true) := by
  have husable : Usable w := run_preserves (fun _ _ _ h hstep => usable_step h hstep) hrun hfs
  have hloaders : ∃ ring, (w.load pid tool true true).loaders pid = some (tool, ring) := by
    rw [World.load, if_pos rfl]
    split
    next ring hring =>
        rw [if_pos (husable ring hring tool)]
        exact ⟨ring, Function.update_self ..⟩
    next => exact ⟨_, Function.update_self ..⟩
  obtain ⟨ring, hring⟩ := hloaders
  refine ⟨if_neg (by simp [hfree]), by simp [World.ringOf, hfree], ?_⟩
  rw [World.ringOf, hring]
  rfl

end

/-- smbslower runs, nfs is detached, nfsslower starts: a consumer that opens the path then
does not have the ring of smbslower. -/
theorem shares_iff_detachedNfs : ∃ w₁ w₂ w₃ : World,
    Joins (.loader 1) (.start ⟨none, ∅, Finset.notMem_empty _⟩) (.load 1 .smbslower true true) w₁ ∧
      run step w₁ [.detach (fun _ _ => false) ["nfs"], .load 2 .nfsslower true true] = some w₂ ∧
        Joins (.consumer 3) w₂ (.rbOpen 3 true) w₃ ∧
          w₃.ringOf (.loader 1) ≠ w₃.ringOf (.consumer 3) := by
  let w₀ : World := .start ⟨none, ∅, Finset.notMem_empty _⟩
  let w₁ := w₀.load 1 .smbslower true true
  let w₂ := (w₁.detach (fun _ _ => false) ["nfs"]).load 2 .nfsslower true true
  let w₃ := w₂.rbOpen 3 true
  have hx : Joins (.loader 1) w₀ (.load 1 .smbslower true true) w₁ := ⟨rfl, rfl, rfl⟩
  have hrun : run step w₁ [.detach (fun _ _ => false) ["nfs"], .load 2 .nfsslower true true] =
      some w₂ := rfl
  have hy : Joins (.consumer 3) w₂ (.rbOpen 3 true) w₃ := ⟨rfl, rfl, by decide +kernel⟩
  refine ⟨w₁, w₂, w₃, hx, hrun, hy, fun h => ?_⟩
  have hshares := @shares_iff _ _ _ [] _ _ _ _ _ _ _ rfl hx hrun (by simp [Member.leave]) hy
  have hkept := (hshares.2 fun p _ => Finset.notMem_empty p).mp h _ List.mem_cons_self
  exact Bool.false_ne_true hkept

end MonitoringTools.RingSharing
