import DocumentViews.Resolution.Policy
import DocumentViews.Schema.Classifier

/-! Where a walk stands: the chain of collections from the root.
Along a chain each hop from one collection to the next may be repeated only so often. The budget of
a trail is what is left of all hops between known collections; a hop that is still allowed makes it
smaller, which is why every walk ends. -/
namespace DocumentViews

/-- All that a walk looks up and never changes. -/
structure Scope where
  snapshot : Snapshot
  classify : Classifier
  policy : Policy
  root : String

/-- The hops of a chain of collections, given from its end back to its start. -/
def hops : List String → List (String × String)
  | child :: parent :: rest => (parent, child) :: hops (parent :: rest)
  | _ => []

/-- A known collection and the chain that leads to it, its parent first. -/
structure Trail (scope : Scope) where
  here : String
  above : List String
  collection : Collection
  known : scope.snapshot.collection? here = some collection

namespace Trail

variable {scope : Scope}

def parent? (trail : Trail scope) : Option String := trail.above.head?

def taken (trail : Trail scope) : List (String × String) := hops (trail.here :: trail.above)

def onward (trail : Trail scope) (name : String) (collection : Collection)
    (known : scope.snapshot.collection? name = some collection) : Trail scope :=
  ⟨name, trail.here :: trail.above, collection, known⟩

def repetitions (trail : Trail scope) : Nat :=
  match trail.taken with
  | [] => 0
  | latest :: rest => (latest :: rest).count latest

/-- Whether the walk stops here: back at the root, or after too many of the same hop. -/
def ends (trail : Trail scope) : Bool :=
  (trail.here == scope.root && !scope.policy.revisitRoot) ||
    scope.policy.maxDepth.toNat ≤ trail.repetitions

/-- Whether one trail is another one with an allowed hop added. -/
def HopsTo (trail next : Trail scope) : Prop :=
  next.above = trail.here :: trail.above ∧ next.ends = false

def possible (scope : Scope) : List (String × String) :=
  scope.snapshot.collections.keys.flatMap fun parent =>
    scope.snapshot.collections.keys.map fun child => (parent, child)

/-- What a limit leaves of a row of hops after those taken. -/
def allowance (limit : Nat) (taken : List (String × String)) : List (String × String) → Nat
  | [] => 0
  | hop :: rest => (limit - taken.count hop) + allowance limit taken rest

/-- What the policy leaves of all possible hops. -/
def budget (trail : Trail scope) : Nat :=
  allowance scope.policy.maxDepth.toNat trail.taken (possible scope)

theorem allowance_le (limit : Nat) (taken : List (String × String)) (latest : String × String)
    (list : List (String × String)) :
    allowance limit (latest :: taken) list ≤ allowance limit taken list := by
  induction list with
  | nil => exact Nat.le_refl 0
  | cons hop rest ih =>
    have counted : taken.count hop ≤ (latest :: taken).count hop := List.count_le_count_cons
    simp only [allowance]
    omega

theorem allowance_lt (limit : Nat) (taken : List (String × String)) (latest : String × String)
    (list : List (String × String)) (member : latest ∈ list)
    (below : (latest :: taken).count latest < limit) :
    allowance limit (latest :: taken) list < allowance limit taken list := by
  induction list with
  | nil => cases member
  | cons hop rest ih =>
    simp only [allowance]
    have later := allowance_le limit taken latest rest
    rcases List.mem_cons.mp member with here | there
    · subst here
      have counted : (latest :: taken).count latest = taken.count latest + 1 := List.count_cons_self
      omega
    · have counted : taken.count hop ≤ (latest :: taken).count hop := List.count_le_count_cons
      have := ih there
      omega

theorem mem_keys_of_known (trail : Trail scope) : trail.here ∈ scope.snapshot.collections.keys := by
  have known := trail.known
  simp only [Snapshot.collection?, NameMap.get?] at known
  cases found : scope.snapshot.collections.entries.find? (fun entry => entry.1 = trail.here) with
  | none => rw [found] at known; cases known
  | some entry =>
    have same := List.find?_some found
    have member := List.mem_of_find?_eq_some found
    exact List.mem_map.mpr ⟨entry, member, of_decide_eq_true same⟩

theorem mem_possible {scope : Scope} {parent child : String}
    (hp : parent ∈ scope.snapshot.collections.keys) (hc : child ∈ scope.snapshot.collections.keys) :
    (parent, child) ∈ possible scope :=
  List.mem_flatMap.mpr ⟨parent, hp, List.mem_map.mpr ⟨child, hc, rfl⟩⟩

/-- An allowed hop leaves less of the budget. -/
theorem budget_lt_of_hopsTo {trail next : Trail scope} (h : trail.HopsTo next) :
    next.budget < trail.budget := by
  obtain ⟨above, going⟩ := h
  have taken : next.taken = (trail.here, next.here) :: trail.taken := by
    simp only [Trail.taken, above, hops]
  have below : ((trail.here, next.here) :: trail.taken).count (trail.here, next.here)
      < scope.policy.maxDepth.toNat := by
    simp only [ends, Bool.or_eq_false_iff, decide_eq_false_iff_not, repetitions, taken] at going
    exact Nat.lt_of_not_le going.2
  rw [budget, budget, taken]
  exact allowance_lt _ _ _ _ (mem_possible trail.mem_keys_of_known next.mem_keys_of_known) below

end Trail

end DocumentViews
