import MonitoringTools.EventLayout
import MonitoringTools.RingPoll

/-!
# The ring buffer shim

One call polls the ring once and copies every record that is long enough into the
caller's buffer, until the buffer is full. The record that finds it full is consumed
all the same. The caller reads as many entries as the call returns.
-/
namespace MonitoringTools.RingbufShim
open EventLayout RingPoll

abbrev Record := List UInt8

abbrev EventBuffer := ℕ → List UInt8

structure RbContext where
  extBuf : EventBuffer
  extCapacity : ℤ
  count : ℕ

/-- A record that is long enough for an event. -/
def Whole (r : Record) : Prop := sizeofEvent ≤ r.length

instance : DecidablePred Whole := fun _ => inferInstanceAs (Decidable (_ ≤ _))

def copyEvent (c : RbContext) (data : Record) : ℤ × RbContext :=
  if data.length < sizeofEvent then (0, c)
  else if c.extCapacity ≤ c.count then (-1, c)
  else
    (0, {c with
      extBuf := Function.update c.extBuf c.count (data.take sizeofEvent)
      count := c.count + 1})

structure Answer where
  ret : ℤ
  buf : EventBuffer
  handed : List Record

def eintr : ℤ := 4

/-- The answer, and the records still pending. -/
def rbPollInto (wait : Wait) (buf : EventBuffer) (capacity : ℤ) (pending : List Record) :
    Answer × List Record :=
  let p := poll copyEvent wait ⟨buf, capacity, 0⟩ pending
  let ret : ℤ :=
    if 0 < p.context.count then p.context.count
    else if p.value < 0 ∧ p.value ≠ -eintr then p.value
    else 0
  (⟨ret, p.context.extBuf, p.handed⟩, p.left)

/-- The entries that the caller reads. -/
def Answer.batch (a : Answer) : List (List UInt8) := (List.range a.ret.toNat).map a.buf

/-- The events that the call took from the ring without delivering them. -/
def Answer.lost (a : Answer) : List Record := (a.handed.filter Whole).drop a.ret.toNat

/-- One call: what arrived since the previous one, and how the wait ends. -/
structure Round where
  arrivals : List Record
  wait : Wait
  buf : EventBuffer
  capacity : ℤ

def serve : List Record → List Round → List Answer × List Record
  | pending, [] => ([], pending)
  | pending, round :: rounds =>
      let first := rbPollInto round.wait round.buf round.capacity (pending ++ round.arrivals)
      let rest := serve first.2 rounds
      (first.1 :: rest.1, rest.2)

structure Delivers (round : Round) (a : Answer) : Prop where
  /-- No entry beyond the capacity is written or counted. -/
  within : a.ret ≤ round.capacity ∧ ∀ i : ℕ, round.capacity ≤ i → a.buf i = round.buf i
  /-- The caller reads the first events that the poll handed over. -/
  batch : a.batch = ((a.handed.filter Whole).take a.ret.toNat).map (List.take sizeofEvent)
  /-- A call that does not fill the buffer loses nothing. -/
  complete : a.ret < round.capacity → a.lost = []
  /-- A call that fills it loses at most the event after the last one delivered, where
  the poll stopped. -/
  full : a.ret = round.capacity → a.lost = [] ∨ ∃ r, a.lost = [r] ∧ a.handed.getLast? = some r
  /-- A failure is told only when there was nothing to deliver. -/
  failed : a.ret < 0 → a.handed = [] ∧ a.buf = round.buf

structure Delivered (rounds : List Round) (answers : List Answer) (left : List Record) : Prop where
  calls : List.Forall₂ Delivers rounds answers
  /-- Every record of the stream was handed over once, in order, or is pending. -/
  stream : answers.flatMap Answer.handed ++ left = rounds.flatMap Round.arrivals
  /-- The batches hold events of the stream, each at most once and in order. -/
  inOrder : (answers.flatMap Answer.batch).Sublist
    (((rounds.flatMap Round.arrivals).filter Whole).map (List.take sizeofEvent))

/-- The entries copied so far. -/
def RbContext.contents (c : RbContext) : List (List UInt8) := (List.range c.count).map c.extBuf

/-- As long as the callback goes on, all events handed over are in the buffer. -/
structure Copied (buf : EventBuffer) (capacity : ℤ) (handed : List Record) (c : RbContext) :
    Prop where
  extCapacity : c.extCapacity = capacity
  within : c.count ≤ capacity
  untouched : ∀ i : ℕ, capacity ≤ i → c.extBuf i = buf i
  contents : c.contents = (handed.filter Whole).map (List.take sizeofEvent)

theorem Copied.count {buf : EventBuffer} {capacity : ℤ} {handed : List Record} {c : RbContext}
    (h : Copied buf capacity handed c) : c.count = (handed.filter Whole).length := by
  simpa [RbContext.contents] using congrArg List.length h.contents

theorem contents_update (c : RbContext) (entry : List UInt8) :
    RbContext.contents {c with extBuf := Function.update c.extBuf c.count entry, count := c.count + 1} =
      c.contents ++ [entry] := by
  simp only [RbContext.contents, List.range_succ, List.map_append, List.map_singleton,
    Function.update_self]
  congr 1
  refine List.map_congr_left fun i hi => ?_
  rw [Function.update_of_ne (List.mem_range.mp hi).ne]

/-- The callback answers a negative value only to an event that finds the buffer full. -/
theorem copyEvent_neg {c : RbContext} {r : Record} (h : (copyEvent c r).1 < 0) :
    Whole r ∧ c.extCapacity ≤ c.count ∧ (copyEvent c r) = (-1, c) := by
  unfold copyEvent at h ⊢
  split_ifs at h ⊢ with hshort hfull
  · exact absurd h (lt_irrefl 0)
  · exact ⟨not_lt.mp hshort, hfull, rfl⟩
  · exact absurd h (lt_irrefl 0)

theorem copyEvent_copied {buf : EventBuffer} {capacity : ℤ} {handed : List Record} {c : RbContext}
    {r : Record} (h : Copied buf capacity handed c) (hr : 0 ≤ (copyEvent c r).1) :
    Copied buf capacity (handed ++ [r]) (copyEvent c r).2 := by
  unfold copyEvent at hr ⊢
  split_ifs at hr ⊢ with hshort hfull
  · refine ⟨h.extCapacity, h.within, h.untouched, ?_⟩
    have hnot : ¬ Whole r := not_le.mpr hshort
    rw [List.filter_append, List.filter_singleton, decide_eq_false hnot, h.contents]
    simp
  · exact absurd hr (show ¬ (0 : ℤ) ≤ -1 by decide)
  · rw [h.extCapacity, not_le] at hfull
    refine ⟨h.extCapacity, ?_, fun i hi => ?_, ?_⟩
    · push_cast
      exact hfull
    · have hne : i ≠ c.count := by omega
      simp only [Function.update_of_ne hne]
      exact h.untouched i hi
    · have hlong : Whole r := not_lt.mp hshort
      rw [contents_update, h.contents, List.filter_append, List.filter_singleton,
        decide_eq_true hlong]
      simp

theorem copied_nil (buf : EventBuffer) {capacity : ℤ} (hcap : 1 ≤ capacity) :
    Copied buf capacity [] ⟨buf, capacity, 0⟩ :=
  ⟨rfl, zero_le_one.trans hcap, fun _ _ => rfl, rfl⟩

/-- A poll that ran out of records delivers all events it handed over. -/
theorem delivers_of_exhausted {round : Round} {a : Answer} {c : RbContext}
    (h : Copied round.buf round.capacity a.handed c) (hbuf : a.buf = c.extBuf)
    (hret : a.ret = c.count) : Delivers round a := by
  have hcount : a.ret.toNat = (a.handed.filter Whole).length := by
    rw [hret, Int.toNat_natCast, h.count]
  have hlost : a.lost = [] := by rw [Answer.lost, hcount, List.drop_length]
  refine ⟨⟨hret ▸ h.within, hbuf ▸ h.untouched⟩, ?_, fun _ => hlost, fun _ => .inl hlost, ?_⟩
  · rw [hcount, List.take_length, ← h.contents, Answer.batch, RbContext.contents, hbuf, hret,
      Int.toNat_natCast]
  · intro hneg
    omega

/-- A poll that stopped at a full buffer delivers all events but the last. -/
theorem delivers_of_stopped {round : Round} {a : Answer} {c : RbContext} {init : List Record}
    {r : Record} (h : Copied round.buf round.capacity init c) (hr : Whole r)
    (hfull : round.capacity ≤ c.count) (hhanded : a.handed = init ++ [r])
    (hbuf : a.buf = c.extBuf) (hret : a.ret = c.count) : Delivers round a := by
  have hcount : a.ret.toNat = (init.filter Whole).length := by
    rw [hret, Int.toNat_natCast, h.count]
  have hfilter : a.handed.filter Whole = init.filter Whole ++ [r] := by
    rw [hhanded, List.filter_append, List.filter_singleton, decide_eq_true hr, cond_true]
  have hlost : a.lost = [r] := by rw [Answer.lost, hcount, hfilter, List.drop_left]
  refine ⟨⟨hret ▸ h.within, hbuf ▸ h.untouched⟩, ?_, ?_, fun _ => .inr ⟨r, hlost, ?_⟩, ?_⟩
  · rw [hcount, hfilter, List.take_left, ← h.contents, Answer.batch, RbContext.contents, hbuf,
      hret, Int.toNat_natCast]
  · intro hless
    omega
  · rw [hhanded, List.getLast?_concat]
  · intro hneg
    omega

theorem delivers_of_failed {round : Round} {a : Answer} (hcap : 1 ≤ round.capacity)
    (hret : a.ret ≤ 0) (hhanded : a.handed = []) (hbuf : a.buf = round.buf) :
    Delivers round a := by
  have hlost : a.lost = [] := by rw [Answer.lost, hhanded, List.filter_nil, List.drop_nil]
  refine ⟨⟨by omega, fun i _ => by rw [hbuf]⟩, ?_, fun _ => hlost, fun _ => .inl hlost,
    fun _ => ⟨hhanded, hbuf⟩⟩
  rw [Answer.batch, hhanded, Int.toNat_of_nonpos hret]
  rfl

theorem rbPollInto_ret (wait : Wait) (buf : EventBuffer) (capacity : ℤ) (pending : List Record)
    (h : 0 ≤ (poll copyEvent wait ⟨buf, capacity, 0⟩ pending).value ∨
      0 < (poll copyEvent wait ⟨buf, capacity, 0⟩ pending).context.count) :
    (rbPollInto wait buf capacity pending).1.ret =
      (poll copyEvent wait ⟨buf, capacity, 0⟩ pending).context.count := by
  simp only [rbPollInto]
  split_ifs with hpos hneg
  · rfl
  · exact absurd (h.resolve_right hpos) (not_le.mpr hneg.1)
  · rw [Nat.eq_zero_of_not_pos hpos, Nat.cast_zero]

theorem rbPollInto_delivers (round : Round) (hcap : 1 ≤ round.capacity) (pending : List Record) :
    Delivers round (rbPollInto round.wait round.buf round.capacity pending).1 := by
  obtain ⟨arrivals, wait, buf, capacity⟩ := round
  cases wait with
  | failed errno =>
      refine delivers_of_failed hcap ?_ rfl rfl
      simp only [rbPollInto, poll, lt_irrefl, if_false]
      split_ifs <;> omega
  | timeout =>
      have hret := rbPollInto_ret .timeout buf capacity pending (.inl (le_refl _))
      exact delivers_of_exhausted (copied_nil buf hcap) rfl hret
  | ready =>
      have houtcome := consume_outcome (fun _ _ _ => copyEvent_copied) (copied_nil buf hcap) pending
      cases houtcome with
      | exhausted hvalue hcopied =>
          exact delivers_of_exhausted hcopied rfl (rbPollInto_ret .ready buf capacity pending
            (.inl hvalue))
      | stopped init r c hhanded hcopied hneg hvalue hcontext =>
          obtain ⟨hr, hfull, heq⟩ := copyEvent_neg hneg
          rw [heq] at hcontext
          have hpos : 0 < c.count := by
            rw [hcopied.extCapacity] at hfull
            have : 1 ≤ capacity := hcap
            omega
          have hret := rbPollInto_ret .ready buf capacity pending (.inr (by
            rw [poll, hcontext]
            exact hpos))
          rw [poll, hcontext] at hret
          exact delivers_of_stopped hcopied hr (hcopied.extCapacity ▸ hfull) hhanded
            (congrArg RbContext.extBuf hcontext) hret

theorem serve_calls (rounds : List Round) (hcap : ∀ round ∈ rounds, 1 ≤ round.capacity)
    (pending : List Record) : List.Forall₂ Delivers rounds (serve pending rounds).1 := by
  induction rounds generalizing pending with
  | nil => exact .nil
  | cons round rounds ih =>
      obtain ⟨hfirst, hrest⟩ := List.forall_mem_cons.mp hcap
      exact .cons (rbPollInto_delivers round hfirst _) (ih hrest _)

theorem serve_stream (rounds : List Round) (pending : List Record) :
    (serve pending rounds).1.flatMap Answer.handed ++ (serve pending rounds).2 =
      pending ++ rounds.flatMap Round.arrivals := by
  induction rounds generalizing pending with
  | nil => simp [serve]
  | cons round rounds ih =>
      have hfirst := @handed_append_left _ _ copyEvent round.wait ⟨round.buf, round.capacity, 0⟩
        (pending ++ round.arrivals)
      rw [serve, List.flatMap_cons, List.flatMap_cons, List.append_assoc, ih, ← List.append_assoc,
        ← List.append_assoc]
      exact congrArg (· ++ _) hfirst

theorem batches_sublist {rounds : List Round} {answers : List Answer}
    (h : List.Forall₂ Delivers rounds answers) : (answers.flatMap Answer.batch).Sublist
      (((answers.flatMap Answer.handed).filter Whole).map (List.take sizeofEvent)) := by
  induction h with
  | nil => exact .slnil
  | cons hfirst _ ih =>
      rw [List.flatMap_cons, List.flatMap_cons, List.filter_append, List.map_append]
      refine List.Sublist.append ?_ ih
      rw [hfirst.batch]
      exact (List.take_sublist _ _).map _

/-- Whatever arrives when, every sequence of calls delivers the events of the stream in
order and loses at most one for each call that fills its buffer. -/
theorem serve_delivered (rounds : List Round) (hcap : ∀ round ∈ rounds, 1 ≤ round.capacity) :
    Delivered rounds (serve [] rounds).1 (serve [] rounds).2 := by
  have hcalls := serve_calls rounds hcap []
  have hstream := serve_stream rounds []
  refine ⟨hcalls, hstream, (batches_sublist hcalls).trans ?_⟩
  rw [List.nil_append] at hstream
  rw [← hstream, List.filter_append, List.map_append]
  exact List.sublist_append_left _ _

/-- Two calls with room for one event each: the first takes two whole records and loses the
second. -/
def narrow : List Round :=
  let event := fun b : UInt8 => List.replicate sizeofEvent b
  [⟨[event 1, [0, 0], event 2, event 3], .ready, fun _ => [], 1⟩, ⟨[], .ready, fun _ => [], 1⟩]

theorem serve_delivered_narrow :
    (serve [] narrow).1.map (fun a => (a.ret, a.batch, a.lost)) =
        [(1, [List.replicate 48 1], [List.replicate 48 2]), (1, [List.replicate 48 3], [])] ∧
      Delivered narrow (serve [] narrow).1 (serve [] narrow).2 :=
  ⟨by decide +kernel, serve_delivered narrow (by decide +kernel)⟩

end MonitoringTools.RingbufShim
