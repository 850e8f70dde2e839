import Mathlib.Data.Finmap

/-!
# Linked lists in a heap

A heap holds the live nodes by their addresses. To read, write or free an address
that is not live is a fault, and so is a loop that runs out of fuel: an answer says
that neither happened. A link is reached through the place that stores it, which is
the variable that holds the head or the field of a node.
-/
namespace MonitoringTools.LinkedHeap

structure Node (α : Type*) where
  value : α
  next : Option ℕ
  deriving DecidableEq, Repr

abbrev Heap (α : Type*) := Finmap fun _ : ℕ => Node α

structure Linked (α : Type*) where
  heap : Heap α
  head : Option ℕ

/-- Where a link is stored. -/
inductive Place where
  | head
  | next (addr : ℕ)
  deriving DecidableEq, Repr

variable {α : Type*}

def Linked.empty : Linked α := ⟨∅, none⟩

namespace Linked

def deref (s : Linked α) : Place → Option (Option ℕ)
  | .head => some s.head
  | .next addr => (s.heap.lookup addr).map Node.next

def assign (s : Linked α) (link : Option ℕ) : Place → Option (Linked α)
  | .head => some {s with head := link}
  | .next addr => (s.heap.lookup addr).map fun node =>
      {s with heap := s.heap.insert addr {node with next := link}}

/-- Change the value of a node. -/
def modify (s : Linked α) (f : α → α) (addr : ℕ) : Option (Linked α) :=
  (s.heap.lookup addr).map fun node =>
    {s with heap := s.heap.insert addr {node with value := f node.value}}

def free (s : Linked α) (addr : ℕ) : Option (Linked α) :=
  (s.heap.lookup addr).map fun _ => {s with heap := s.heap.erase addr}

/-- Link a fresh node in before the head. -/
def push (s : Linked α) (addr : ℕ) (value : α) : Linked α :=
  ⟨s.heap.insert addr ⟨value, s.head⟩, some addr⟩

/-- Walk along the links to the first node that passes a test. -/
def find (s : Linked α) (p : α → Bool) : ℕ → Option ℕ → Option (Option ℕ)
  | 0, _ => none
  | _ + 1, none => some none
  | fuel + 1, some addr =>
      (s.heap.lookup addr).bind fun node =>
        if p node.value then some (some addr) else s.find p fuel node.next

/-- Walk along the places, unlink and free the first node that passes a test. -/
def remove (s : Linked α) (p : α → Bool) : ℕ → Place → Option (Linked α)
  | 0, _ => none
  | fuel + 1, place =>
      (s.deref place).bind fun
        | none => some s
        | some addr =>
            (s.heap.lookup addr).bind fun node =>
              if p node.value then (s.assign node.next place).bind fun s' => s'.free addr
              else s.remove p fuel (.next addr)

/-- Free every node from a link on, reading its link first. -/
def freeAll (s : Linked α) : ℕ → Option ℕ → Option (Linked α)
  | 0, _ => none
  | _ + 1, none => some {s with head := none}
  | fuel + 1, some addr =>
      (s.heap.lookup addr).bind fun node =>
        (s.free addr).bind fun s' => s'.freeAll fuel node.next

end Linked

/-- The link to a list of nodes, given by their addresses and values, before a last link. -/
def linkTo (last : Option ℕ) : List (ℕ × α) → Option ℕ
  | [] => last
  | (addr, _) :: _ => some addr

/-- The nodes are live and each is linked to the one after it. -/
def Chained (heap : Heap α) (last : Option ℕ) : List (ℕ × α) → Prop
  | [] => True
  | (addr, value) :: rest =>
      heap.lookup addr = some ⟨value, linkTo last rest⟩ ∧ Chained heap last rest

def addresses (nodes : List (ℕ × α)) : List ℕ := nodes.map Prod.fst

/-- The list is made of these nodes, and no other node is live. -/
structure Holds (s : Linked α) (nodes : List (ℕ × α)) : Prop where
  head : s.head = linkTo none nodes
  chained : Chained s.heap none nodes
  nodup : (addresses nodes).Nodup
  live : ∀ addr, (s.heap.lookup addr).isSome ↔ addr ∈ addresses nodes

/-- The place that stores the link behind a list of nodes. -/
def placeAfter (nodes : List (ℕ × α)) : Place :=
  match nodes.getLast? with
  | none => .head
  | some (addr, _) => .next addr

@[simp] theorem addresses_nil : addresses ([] : List (ℕ × α)) = [] := rfl

@[simp] theorem addresses_cons (node : ℕ × α) (nodes : List (ℕ × α)) :
    addresses (node :: nodes) = node.1 :: addresses nodes := rfl

@[simp] theorem addresses_append (before after : List (ℕ × α)) :
    addresses (before ++ after) = addresses before ++ addresses after := List.map_append

theorem linkTo_append (last : Option ℕ) (before after : List (ℕ × α)) :
    linkTo last (before ++ after) = linkTo (linkTo last after) before := by
  cases before <;> rfl

theorem placeAfter_concat (nodes : List (ℕ × α)) (addr : ℕ) (value : α) :
    placeAfter (nodes ++ [(addr, value)]) = .next addr := by
  rw [placeAfter, List.getLast?_concat]

theorem chained_append {heap : Heap α} {last : Option ℕ} {before after : List (ℕ × α)} :
    Chained heap last (before ++ after) ↔
      Chained heap (linkTo last after) before ∧ Chained heap last after := by
  induction before with
  | nil => exact ⟨fun h => ⟨trivial, h⟩, And.right⟩
  | cons node before ih =>
      rw [List.cons_append, Chained, Chained, ih, linkTo_append, and_assoc]

theorem Chained.congr {heap heap' : Heap α} {last : Option ℕ} {nodes : List (ℕ × α)}
    (h : Chained heap last nodes)
    (hsame : ∀ addr ∈ addresses nodes, heap'.lookup addr = heap.lookup addr) :
    Chained heap' last nodes := by
  induction nodes with
  | nil => trivial
  | cons node nodes ih =>
      refine ⟨?_, ih h.2 fun addr haddr => hsame addr (List.mem_cons_of_mem _ haddr)⟩
      rw [hsame node.1 List.mem_cons_self]
      exact h.1

/-- Redirect the link of the last node of a chain. -/
theorem Chained.redirect {heap : Heap α} {last last' : Option ℕ} {before : List (ℕ × α)}
    {addr : ℕ} {value : α} (h : Chained heap last (before ++ [(addr, value)]))
    (hnew : addr ∉ addresses before) :
    Chained (heap.insert addr ⟨value, last'⟩) last' (before ++ [(addr, value)]) := by
  obtain ⟨hbefore, -⟩ := chained_append.mp h
  refine chained_append.mpr ⟨?_, Finmap.lookup_insert heap, trivial⟩
  refine Chained.congr hbefore fun other hother => Finmap.lookup_insert_of_ne heap ?_
  rintro rfl
  exact hnew hother

namespace Holds
variable {s : Linked α} {nodes : List (ℕ × α)}

theorem empty : Holds (Linked.empty : Linked α) [] :=
  ⟨rfl, trivial, List.nodup_nil, fun addr => by simp [Linked.empty]⟩

theorem lookup {before rest : List (ℕ × α)} {addr : ℕ} {value : α}
    (h : Holds s (before ++ (addr, value) :: rest)) :
    s.heap.lookup addr = some ⟨value, linkTo none rest⟩ :=
  (chained_append.mp h.chained).2.1

theorem deref {before rest : List (ℕ × α)} (h : Holds s (before ++ rest)) :
    s.deref (placeAfter before) = some (linkTo none rest) := by
  cases before using List.reverseRecOn with
  | nil => exact congrArg some h.head
  | append_singleton before node =>
      rw [List.append_assoc] at h
      rw [placeAfter_concat, Linked.deref, h.lookup]
      rfl

theorem push (h : Holds s nodes) {addr : ℕ} (hfresh : s.heap.lookup addr = none) (value : α) :
    Holds (s.push addr value) ((addr, value) :: nodes) := by
  have hnew : addr ∉ addresses nodes := by
    rw [← h.live, hfresh]
    exact Bool.false_ne_true
  refine ⟨rfl, ⟨?_, ?_⟩, List.nodup_cons.mpr ⟨hnew, h.nodup⟩, fun other => ?_⟩
  · rw [← h.head]
    exact Finmap.lookup_insert s.heap
  · refine h.chained.congr fun other hother => Finmap.lookup_insert_of_ne s.heap ?_
    rintro rfl
    exact hnew hother
  · by_cases heq : other = addr
    · subst heq
      simp [Linked.push]
    · rw [addresses_cons, List.mem_cons, or_iff_right heq, ← h.live, Linked.push,
        Finmap.lookup_insert_of_ne _ heq]

theorem nodup_split {before rest : List (ℕ × α)} {addr : ℕ} {value : α}
    (h : Holds s (before ++ (addr, value) :: rest)) :
    addr ∉ addresses before ∧ addr ∉ addresses rest ∧ (addresses (before ++ rest)).Nodup := by
  have hnodup := h.nodup
  rw [addresses_append, addresses_cons, List.nodup_middle] at hnodup
  obtain ⟨hnew, hrest⟩ := List.nodup_cons.mp hnodup
  rw [List.mem_append, not_or] at hnew
  exact ⟨hnew.1, hnew.2, by rwa [addresses_append]⟩

theorem modify {before rest : List (ℕ × α)} {addr : ℕ} {value : α}
    (h : Holds s (before ++ (addr, value) :: rest)) (f : α → α) :
    ∃ s', s.modify f addr = some s' ∧ Holds s' (before ++ (addr, f value) :: rest) := by
  obtain ⟨hbefore, hrest, -⟩ := h.nodup_split
  have hkeys : addresses (before ++ (addr, f value) :: rest) =
      addresses (before ++ (addr, value) :: rest) := by
    rw [addresses_append, addresses_append, addresses_cons, addresses_cons]
  refine ⟨⟨s.heap.insert addr ⟨f value, linkTo none rest⟩, s.head⟩, ?_, ?_, ?_, ?_, ?_⟩
  · rw [Linked.modify, h.lookup]
    rfl
  · rw [h.head, linkTo_append, linkTo_append]
    rfl
  · obtain ⟨hchain, hcell, hlast⟩ := chained_append.mp h.chained
    refine chained_append.mpr ⟨?_, Finmap.lookup_insert _, ?_⟩
    · refine Chained.congr hchain fun other hother => Finmap.lookup_insert_of_ne _ ?_
      rintro rfl
      exact hbefore hother
    · refine Chained.congr hlast fun other hother => Finmap.lookup_insert_of_ne _ ?_
      rintro rfl
      exact hrest hother
  · rw [hkeys]
    exact h.nodup
  · intro other
    rw [hkeys, ← h.live]
    by_cases heq : other = addr
    · subst heq
      rw [h.lookup, Finmap.lookup_insert]
      rfl
    · rw [Finmap.lookup_insert_of_ne _ heq]

/-- Unlink and free the node behind a place. -/
theorem unlink {before rest : List (ℕ × α)} {addr : ℕ} {value : α}
    (h : Holds s (before ++ (addr, value) :: rest)) :
    ∃ s', ((s.assign (linkTo none rest) (placeAfter before)).bind fun u => u.free addr) = some s' ∧
      Holds s' (before ++ rest) := by
  obtain ⟨hbefore, hrest, hnodup⟩ := h.nodup_split
  obtain ⟨hchain, hcell, hlast⟩ := chained_append.mp h.chained
  have hothers : ∀ other, other ≠ addr → (other ∈ addresses (before ++ rest) ↔
      other ∈ addresses (before ++ (addr, value) :: rest)) := by
    intro other hne
    simp [hne]
  have hgone : addr ∉ addresses (before ++ rest) := by
    rw [addresses_append, List.mem_append, not_or]
    exact ⟨hbefore, hrest⟩
  cases before using List.reverseRecOn with
  | nil =>
      refine ⟨⟨s.heap.erase addr, linkTo none rest⟩, ?_, rfl, ?_, hnodup, fun other => ?_⟩
      · rw [placeAfter, List.getLast?_nil, Linked.assign, Option.bind_some, Linked.free, hcell]
        rfl
      · refine hlast.congr fun other hother => Finmap.lookup_erase_ne ?_
        rintro rfl
        exact hrest hother
      · by_cases heq : other = addr
        · subst heq
          simpa using hgone
        · rw [Finmap.lookup_erase_ne heq, h.live, hothers other heq]
  | append_singleton before node =>
      obtain ⟨p, u⟩ := node
      have hcellp : s.heap.lookup p = some ⟨u, some addr⟩ := (chained_append.mp hchain).2.1
      have hne : p ≠ addr := by
        rintro rfl
        exact hbefore (by simp)
      have hp : p ∉ addresses (before ++ rest) := by
        rw [List.append_assoc, List.cons_append, List.nil_append, addresses_append, addresses_cons,
          List.nodup_middle, ← addresses_append] at hnodup
        exact (List.nodup_cons.mp hnodup).1
      rw [addresses_append, List.mem_append, not_or] at hp
      let relinked := s.heap.insert p ⟨u, linkTo none rest⟩
      have hnode : relinked.lookup addr = s.heap.lookup addr :=
        Finmap.lookup_insert_of_ne _ hne.symm
      refine ⟨⟨relinked.erase addr, s.head⟩, ?_, ?_, ?_, hnodup, fun other => ?_⟩
      · rw [placeAfter_concat, Linked.assign, hcellp, Option.map_some, Option.bind_some,
          Linked.free, hnode, hcell]
        rfl
      · rw [h.head, linkTo_append, linkTo_append]
        cases before <;> rfl
      · refine chained_append.mpr ⟨?_, ?_⟩
        · refine Chained.congr (hchain.redirect hp.1) fun other hother => Finmap.lookup_erase_ne ?_
          rintro rfl
          exact hbefore hother
        · refine Chained.congr hlast fun other hother => ?_
          have hnotAddr : other ≠ addr := fun heq => hrest (heq ▸ hother)
          have hnotPrev : other ≠ p := fun heq => hp.2 (heq ▸ hother)
          rw [Finmap.lookup_erase_ne hnotAddr, Finmap.lookup_insert_of_ne _ hnotPrev]
      · by_cases heq : other = addr
        · subst heq
          simpa using hgone
        · rw [Finmap.lookup_erase_ne heq, hothers other heq, ← h.live]
          by_cases hsame : other = p
          · subst hsame
            rw [Finmap.lookup_insert, hcellp]
            rfl
          · rw [Finmap.lookup_insert_of_ne _ hsame]

/-- The walk finds the address of the first node that passes. -/
theorem find_from {before rest : List (ℕ × α)} (h : Holds s (before ++ rest)) (p : α → Bool)
    {fuel : ℕ} (hfuel : rest.length < fuel) : s.find p fuel (linkTo none rest) =
      some ((rest.find? fun node => p node.2).map Prod.fst) := by
  induction rest generalizing before fuel with
  | nil =>
      obtain ⟨fuel, rfl⟩ := Nat.exists_eq_add_of_lt hfuel
      rfl
  | cons node rest ih =>
      obtain ⟨addr, value⟩ := node
      obtain ⟨fuel, rfl⟩ := Nat.exists_eq_succ_of_ne_zero (Nat.ne_zero_of_lt hfuel)
      rw [linkTo, Linked.find, h.lookup, Option.bind_some, List.find?_cons]
      cases hp : p value with
      | true => rfl
      | false =>
          rw [List.append_cons] at h
          exact ih h (Nat.lt_of_succ_lt_succ hfuel)

/-- The walk along the places removes the first node that passes. -/
theorem remove_from {before rest : List (ℕ × α)} (h : Holds s (before ++ rest)) (p : α → Bool)
    {fuel : ℕ} (hfuel : rest.length < fuel) :
    ∃ s', s.remove p fuel (placeAfter before) = some s' ∧
      Holds s' (before ++ rest.eraseP fun node => p node.2) := by
  induction rest generalizing before fuel with
  | nil =>
      obtain ⟨fuel, rfl⟩ := Nat.exists_eq_succ_of_ne_zero (Nat.ne_zero_of_lt hfuel)
      refine ⟨s, ?_, h⟩
      rw [Linked.remove, h.deref]
      rfl
  | cons node rest ih =>
      obtain ⟨addr, value⟩ := node
      obtain ⟨fuel, rfl⟩ := Nat.exists_eq_succ_of_ne_zero (Nat.ne_zero_of_lt hfuel)
      rw [Linked.remove, h.deref, List.eraseP_cons]
      simp only [linkTo, Option.bind_some, h.lookup]
      cases hp : p value with
      | true => exact h.unlink
      | false =>
          rw [List.append_cons] at h
          obtain ⟨s', hs', hholds⟩ := ih h (Nat.lt_of_succ_lt_succ hfuel)
          rw [placeAfter_concat] at hs'
          exact ⟨s', hs', by rwa [List.append_assoc] at hholds⟩

theorem find (h : Holds s nodes) (p : α → Bool) {fuel : ℕ} (hfuel : nodes.length < fuel) :
    s.find p fuel s.head = some ((nodes.find? fun node => p node.2).map Prod.fst) := by
  rw [h.head]
  exact @find_from _ s [] nodes h p fuel hfuel

theorem remove (h : Holds s nodes) (p : α → Bool) {fuel : ℕ} (hfuel : nodes.length < fuel) :
    ∃ s', s.remove p fuel .head = some s' ∧ Holds s' (nodes.eraseP fun node => p node.2) :=
  @remove_from _ s [] nodes h p fuel hfuel

end Holds

/-- Freeing along the links of all live nodes leaves none of them. -/
theorem freeAll_from {s : Linked α} {nodes : List (ℕ × α)} (hchained : Chained s.heap none nodes)
    (hnodup : (addresses nodes).Nodup)
    (hlive : ∀ addr, (s.heap.lookup addr).isSome ↔ addr ∈ addresses nodes) {fuel : ℕ}
    (hfuel : nodes.length < fuel) : s.freeAll fuel (linkTo none nodes) = some Linked.empty := by
  induction nodes generalizing s fuel with
  | nil =>
      obtain ⟨fuel, rfl⟩ := Nat.exists_eq_succ_of_ne_zero (Nat.ne_zero_of_lt hfuel)
      have hempty : s.heap = ∅ := by
        refine Finmap.ext_lookup fun addr => ?_
        rw [Finmap.lookup_empty, ← Option.not_isSome_iff_eq_none, hlive]
        exact List.not_mem_nil
      rw [linkTo, Linked.freeAll, hempty]
      rfl
  | cons node nodes ih =>
      obtain ⟨addr, value⟩ := node
      obtain ⟨fuel, rfl⟩ := Nat.exists_eq_succ_of_ne_zero (Nat.ne_zero_of_lt hfuel)
      obtain ⟨hnew, hrest⟩ := List.nodup_cons.mp hnodup
      have hcell : s.heap.lookup addr = some ⟨value, linkTo none nodes⟩ := hchained.1
      have hfree : s.free addr = some ⟨s.heap.erase addr, s.head⟩ := by
        rw [Linked.free, hcell]
        rfl
      rw [linkTo, Linked.freeAll, hcell, Option.bind_some, hfree, Option.bind_some]
      refine ih ?_ hrest (fun other => ?_) (Nat.lt_of_succ_lt_succ hfuel)
      · refine hchained.2.congr fun other hother => Finmap.lookup_erase_ne ?_
        rintro rfl
        exact hnew hother
      · by_cases heq : other = addr
        · subst heq
          rw [Finmap.lookup_erase]
          exact iff_of_false Bool.false_ne_true hnew
        · rw [Finmap.lookup_erase_ne heq, hlive, addresses_cons, List.mem_cons, or_iff_right heq]

theorem Holds.freeAll {s : Linked α} {nodes : List (ℕ × α)} (h : Holds s nodes) {fuel : ℕ}
    (hfuel : nodes.length < fuel) : s.freeAll fuel s.head = some Linked.empty := by
  rw [h.head]
  exact freeAll_from h.chained h.nodup h.live hfuel

end MonitoringTools.LinkedHeap
