import Mathlib.Data.Set.Function

/-!
# A table addressed through packed keys

An operation history stores and drops values at addresses. The latest word of
the history on an address is what a table should hold there. A table that sees
only packed addresses holds the latest word on the packed address instead, and
the two agree over every history exactly when packing separates the addresses.
-/
namespace MonitoringTools.PackedTable

variable {A B V : Type*}

inductive Op (A V : Type*) where
  | put (a : A) (v : V)
  | drop (a : A)
  deriving DecidableEq, Repr

def Op.address : Op A V → A
  | .put a _ => a
  | .drop a => a

def Op.map (pack : A → B) : Op A V → Op B V
  | .put a v => .put (pack a) v
  | .drop a => .drop (pack a)

/-- The latest word on an address, histories standing newest first: the value
stored last, unless it was dropped since. -/
def latest [DecidableEq A] (a : A) : List (Op A V) → Option V
  | [] => none
  | .put b v :: ops => if a = b then some v else latest a ops
  | .drop b :: ops => if a = b then none else latest a ops

variable [DecidableEq A] [DecidableEq B]

theorem latest_map_of_injOn {pack : A → B} {D : Set A} (hpack : D.InjOn pack) {a : A} (ha : a ∈ D)
    {ops : List (Op A V)} (hops : ∀ o ∈ ops, o.address ∈ D) :
    latest (pack a) (ops.map (Op.map pack)) = latest a ops := by
  induction ops with
  | nil => rfl
  | cons o ops ih =>
      have ih := ih fun o' ho' => hops o' (List.mem_cons_of_mem _ ho')
      have ho : pack a = pack o.address ↔ a = o.address :=
        hpack.eq_iff ha (hops o List.mem_cons_self)
      cases o with
      | put b v | drop b =>
          simp only [Op.address] at ho
          simp only [List.map_cons, Op.map, latest, ho, ih]

/-- One store at an address that packs alike tells a collision. -/
theorem latest_map_collision (pack : A → B) {a b : A} (v : V) (hne : a ≠ b)
    (h : pack a = pack b) :
    latest (pack a) ([Op.put b v].map (Op.map pack)) ≠ latest a [Op.put b v] := by
  simp [latest, Op.map, h, hne]

end MonitoringTools.PackedTable
