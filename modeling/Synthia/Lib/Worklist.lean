import Mathlib.Data.List.Basic
import Mathlib.Data.List.Lattice
import Mathlib.Algebra.BigOperators.Group.List.Basic
import Mathlib.Algebra.GroupWithZero.Nat
import Mathlib.Algebra.Order.BigOperators.Group.List
import Mathlib.Algebra.Order.Group.Nat

/-!
# Searching a graph of names

Nodes are found by their names, and a node refers to others by theirs; a name may be that of
no node. What is reachable from some names is a matter of the graph. Two searches find it.
One keeps a set of names to look at and marks a name when it takes it out, in whatever
order; the other keeps a stack of nodes and marks a name when it puts its node there.

Both end, on cycles too, by a measure on the natural numbers: what the first takes out it
takes from the set, and what it puts there are references of a node it will not expand
again; what the second puts there is a name it will not mark again.
-/

namespace Worklist

/-- Nodes by their names, of which there are so many, and what a node refers to. -/
structure Graph (ν α : Type*) where
  names : List ν
  find : ν → Option α
  references : α → List ν
  named : ∀ name, (find name).isSome = true → name ∈ names

/-- An order in which the elements of a set are taken out of it. -/
structure Order (ν : Type*) where
  pop : List ν → Option (ν × List ν)
  perm : ∀ {names name rest}, pop names = some (name, rest) → names.Perm (name :: rest)
  empty : ∀ {names}, pop names = none → names = []

/-- The last one in. -/
def Order.last {ν : Type*} : Order ν where
  pop names := names.getLast?.map fun name => (name, names.dropLast)
  perm := by
    intro names name rest h
    obtain ⟨last, hlast, hpair⟩ := Option.map_eq_some_iff.mp h
    obtain ⟨rfl, rfl⟩ := Prod.mk.inj hpair
    have happend := List.dropLast_append_getLast? last hlast
    rw [← happend, List.dropLast_concat]
    exact List.perm_append_singleton last names.dropLast
  empty := by
    intro names h
    exact List.getLast?_eq_none_iff.mp (Option.map_eq_none_iff.mp h)

variable {ν α : Type*} {graph : Graph ν α}

/-! ## Reachability -/

/-- There is a node of that name, and it is a root or another reachable one refers to it. -/
inductive Reaches (graph : Graph ν α) (roots : List ν) : ν → Prop
  | root {name node} : name ∈ roots → graph.find name = some node → Reaches graph roots name
  | step {name node other target} : Reaches graph roots name → graph.find name = some node →
      other ∈ graph.references node → graph.find other = some target → Reaches graph roots other

theorem Reaches.exists_node {roots : List ν} {name : ν} (h : Reaches graph roots name) :
    ∃ node, graph.find name = some node := by
  cases h with
  | root _ hnode => exact ⟨_, hnode⟩
  | step _ _ _ htarget => exact ⟨_, htarget⟩

theorem Reaches.mono {roots others : List ν} (hsub : ∀ name ∈ roots, name ∈ others) {name : ν}
    (h : Reaches graph roots name) : Reaches graph others name := by
  induction h with
  | root hname hnode => exact .root (hsub _ hname) hnode
  | step _ hnode hother htarget ih => exact .step ih hnode hother htarget

/-- What is reachable from many roots is reachable from one of them. -/
theorem reaches_iff_exists {roots : List ν} {name : ν} :
    Reaches graph roots name ↔ ∃ root ∈ roots, Reaches graph [root] name := by
  constructor
  · intro h
    induction h with
    | @root name node hname hnode =>
        exact ⟨name, hname, .root (List.mem_singleton_self name) hnode⟩
    | step _ hnode hother htarget ih =>
        obtain ⟨root, hroot, hreaches⟩ := ih
        exact ⟨root, hroot, .step hreaches hnode hother htarget⟩
  · intro h
    obtain ⟨root, hroot, hreaches⟩ := h
    exact hreaches.mono fun other hother => List.mem_singleton.mp hother ▸ hroot

/-- A set of names that has the roots and what its members refer to, where that is there. -/
structure Closed (graph : Graph ν α) (roots : List ν) (names : ν → Prop) : Prop where
  roots : ∀ name ∈ roots, ∀ node, graph.find name = some node → names name
  step : ∀ name, names name → ∀ node, graph.find name = some node →
    ∀ other ∈ graph.references node, ∀ target, graph.find other = some target → names other

theorem Closed.of_reaches {roots : List ν} {names : ν → Prop} (h : Closed graph roots names)
    {name : ν} (hreaches : Reaches graph roots name) : names name := by
  induction hreaches with
  | root hname hnode => exact h.roots _ hname _ hnode
  | step _ hnode hother htarget ih => exact h.step _ ih _ hnode _ hother _ htarget

theorem closed_reaches (graph : Graph ν α) (roots : List ν) :
    Closed graph roots (Reaches graph roots) where
  roots _ hname _ hnode := .root hname hnode
  step _ hname _ hnode _ hother _ htarget := .step hname hnode hother htarget

/-! ## A set of names to look at -/

section Search

variable [DecidableEq ν]

/-- How much a name can put into the set. -/
def Graph.fanOut (graph : Graph ν α) (name : ν) : Nat :=
  match graph.find name with
  | some node => (graph.references node).length
  | none => 0

/-- How much the names that are not marked can put into the set. -/
def Graph.pending (graph : Graph ν α) (reached : List ν) : Nat :=
  (graph.names.map fun name => if name ∈ reached then 0 else graph.fanOut name).sum

/-- Marking a name takes what it weighed. -/
theorem sum_unmarked_cons {names reached : List ν} {name : ν} (weight : ν → Nat)
    (hname : name ∈ names) (hnew : name ∉ reached) :
    weight name + (names.map fun other =>
        if other ∈ name :: reached then 0 else weight other).sum ≤
      (names.map fun other => if other ∈ reached then 0 else weight other).sum := by
  have hle : ∀ others : List ν, (others.map fun other =>
        if other ∈ name :: reached then 0 else weight other).sum ≤
      (others.map fun other => if other ∈ reached then 0 else weight other).sum := by
    intro others
    refine List.sum_le_sum fun other _ => ?_
    by_cases hreached : other ∈ reached
    · simp [hreached]
    · by_cases hsame : other = name <;> simp [hreached, hsame]
  induction names with
  | nil => cases hname
  | cons head names ih =>
      rw [List.map_cons, List.map_cons, List.sum_cons, List.sum_cons]
      by_cases hhead : head = name
      · have := hle names
        rw [hhead, if_pos List.mem_cons_self, if_neg hnew]
        omega
      · have := ih ((List.mem_cons.mp hname).resolve_left (Ne.symm hhead))
        have hsame : (if head ∈ name :: reached then 0 else weight head) =
            if head ∈ reached then 0 else weight head := by
          simp [hhead]
        rw [hsame]
        omega

theorem pending_cons {name : ν} {node : α} {reached : List ν} (hnode : graph.find name = some node)
    (hnew : name ∉ reached) :
    (graph.references node).length + graph.pending (name :: reached) ≤ graph.pending reached := by
  have hname : name ∈ graph.names := graph.named name (by rw [hnode]; rfl)
  have hweight : graph.fanOut name = (graph.references node).length := by
    rw [Graph.fanOut, hnode]
  rw [← hweight]
  exact sum_unmarked_cons graph.fanOut hname hnew

theorem length_union_le (first second : List ν) :
    (first ∪ second).length ≤ first.length + second.length := by
  obtain ⟨part, hpart, hunion⟩ := List.sublist_suffix_of_union first second
  rw [← hunion, List.length_append]
  exact Nat.add_le_add_right hpart.length_le _

variable (order : Order ν) (graph)

/-- What a set of names becomes when one is taken out and its node expanded. -/
def expand (node : α) (name : ν) (rest reached : List ν) : List ν :=
  rest ∪ (graph.references node).filter fun other => other ∉ name :: reached

theorem length_expand_le (node : α) (name : ν) (rest reached : List ν) :
    (expand graph node name rest reached).length ≤
      rest.length + (graph.references node).length :=
  (length_union_le _ _).trans (Nat.add_le_add_left (List.length_filter_le _ _) _)

/-- The names marked, where those in the frontier are still to be looked at. -/
def search (frontier reached : List ν) : List ν :=
  match _hpop : order.pop frontier with
  | none => reached
  | some (name, rest) =>
      match _hnode : graph.find name with
      | none => search rest reached
      | some node =>
          if _hnew : name ∈ reached then search rest reached
          else search (expand graph node name rest reached) (name :: reached)
termination_by frontier.length + graph.pending reached
decreasing_by
  all_goals
    have hlength := (order.perm _hpop).length_eq
    rw [List.length_cons] at hlength
  · omega
  · omega
  · have hpending := pending_cons _hnode _hnew
    have hexpand := length_expand_le graph node name rest reached
    omega

variable {graph} {order}

theorem subset_search {frontier reached : List ν} :
    ∀ name ∈ reached, name ∈ search graph order frontier reached := by
  fun_induction search graph order frontier reached with
  | case1 => exact fun name hname => hname
  | case2 _ _ _ _ _ _ ih => exact ih
  | case3 _ _ _ _ _ _ _ _ ih => exact ih
  | case4 _ _ _ _ _ _ _ _ ih => exact fun name hname => ih name (List.mem_cons_of_mem _ hname)

theorem mem_expand {node : α} {name other : ν} {rest reached : List ν} :
    other ∈ expand graph node name rest reached ↔
      other ∈ rest ∨ other ∈ graph.references node ∧ other ∉ name :: reached := by
  rw [expand, List.mem_union_iff, List.mem_filter, decide_eq_true_iff]

/-- What a marked name refers to is marked, or still to be looked at. -/
def Expanded (graph : Graph ν α) (frontier reached : List ν) : Prop :=
  ∀ name ∈ reached, ∀ node, graph.find name = some node →
    ∀ other ∈ graph.references node, ∀ target, graph.find other = some target →
      other ∈ reached ∨ other ∈ frontier

theorem closed_search {frontier reached : List ν} (h : Expanded graph frontier reached) :
    Closed graph frontier fun name => name ∈ search graph order frontier reached := by
  fun_induction search graph order frontier reached with
  | case1 frontier reached hpop =>
      have hempty := order.empty hpop
      subst hempty
      constructor
      · intro name hname
        cases hname
      · intro name hname node hnode other hother target htarget
        exact (h name hname node hnode other hother target htarget).resolve_right List.not_mem_nil
  | case2 frontier reached name rest hpop hnode ih =>
      have hperm := order.perm hpop
      have hrest := ih fun other hother node hfound next hnext target htarget => by
        refine (h other hother node hfound next hnext target htarget).imp_right fun hfrontier => ?_
        refine (List.mem_cons.mp (hperm.mem_iff.mp hfrontier)).resolve_left fun hsame => ?_
        rw [hsame, hnode] at htarget
        cases htarget
      refine ⟨fun other hother node hfound => ?_, hrest.step⟩
      rcases List.mem_cons.mp (hperm.mem_iff.mp hother) with rfl | hother
      · rw [hnode] at hfound
        cases hfound
      · exact hrest.roots other hother node hfound
  | case3 frontier reached name rest hpop node hnode hold ih =>
      have hperm := order.perm hpop
      have hrest := ih fun other hother node hfound next hnext target htarget => by
        rcases h other hother node hfound next hnext target htarget with hreached | hfrontier
        · exact .inl hreached
        · rcases List.mem_cons.mp (hperm.mem_iff.mp hfrontier) with rfl | hnext
          · exact .inl hold
          · exact .inr hnext
      refine ⟨fun other hother node hfound => ?_, hrest.step⟩
      rcases List.mem_cons.mp (hperm.mem_iff.mp hother) with rfl | hother
      · exact subset_search other hold
      · exact hrest.roots other hother node hfound
  | case4 frontier reached name rest hpop node hnode hnew ih =>
      have hperm := order.perm hpop
      have hrest := ih fun other hother node' hfound next hnext target htarget => by
        rw [mem_expand]
        by_cases hmarked : next ∈ name :: reached
        · exact .inl hmarked
        · rcases List.mem_cons.mp hother with rfl | hother
          · rw [hnode] at hfound
            cases hfound
            exact .inr (.inr ⟨hnext, hmarked⟩)
          · rcases h other hother node' hfound next hnext target htarget with hreached | hfrontier
            · exact .inl (List.mem_cons_of_mem name hreached)
            · rcases List.mem_cons.mp (hperm.mem_iff.mp hfrontier) with rfl | hnext
              · exact .inl List.mem_cons_self
              · exact .inr (.inl hnext)
      refine ⟨fun other hother node hfound => ?_, hrest.step⟩
      rcases List.mem_cons.mp (hperm.mem_iff.mp hother) with rfl | hother
      · exact subset_search other List.mem_cons_self
      · exact hrest.roots other (mem_expand.mpr (.inl hother)) node hfound

/-- What is found is in every closed set that has what was marked before. -/
theorem search_subset {frontier reached : List ν} {names : ν → Prop}
    (hclosed : Closed graph frontier names) (hreached : ∀ name ∈ reached, names name) :
    ∀ name ∈ search graph order frontier reached, names name := by
  fun_induction search graph order frontier reached with
  | case1 => exact hreached
  | case2 frontier reached name rest hpop hnode ih =>
      have hperm := order.perm hpop
      refine ih ⟨fun other hother => ?_, hclosed.step⟩ hreached
      exact hclosed.roots other (hperm.mem_iff.mpr (List.mem_cons_of_mem name hother))
  | case3 frontier reached name rest hpop node hnode hold ih =>
      have hperm := order.perm hpop
      refine ih ⟨fun other hother => ?_, hclosed.step⟩ hreached
      exact hclosed.roots other (hperm.mem_iff.mpr (List.mem_cons_of_mem name hother))
  | case4 frontier reached name rest hpop node hnode hnew ih =>
      have hperm := order.perm hpop
      have hname := hclosed.roots name (hperm.mem_iff.mpr List.mem_cons_self) node hnode
      refine ih ⟨fun other hother target htarget => ?_, hclosed.step⟩ fun other hother => ?_
      · rcases mem_expand.mp hother with hother | hother
        · exact hclosed.roots other (hperm.mem_iff.mpr (List.mem_cons_of_mem name hother)) target
            htarget
        · exact hclosed.step name hname node hnode other hother.1 target htarget
      · rcases List.mem_cons.mp hother with rfl | hother
        · exact hname
        · exact hreached other hother

/-- **The search finds what is reachable**, in whatever order it takes its names. -/
theorem mem_search_iff {roots : List ν} {name : ν} :
    name ∈ search graph order roots [] ↔ Reaches graph roots name :=
  ⟨search_subset (closed_reaches graph roots) (fun _ h => absurd h List.not_mem_nil) name,
    (closed_search fun _ h => absurd h List.not_mem_nil).of_reaches⟩

/-! ## A stack of nodes -/

variable (graph)

/-- One node's references looked at: those not yet marked are, and their nodes go onto the
stack. -/
def mark : List ν → List α × List ν → List α × List ν
  | [], state => state
  | name :: names, state =>
      match graph.find name with
      | none => mark names state
      | some node =>
          if name ∈ state.2 then mark names state
          else mark names (state.1 ++ [node], name :: state.2)

/-- How many names are not marked. -/
def Graph.unmarked (wanted : List ν) : Nat :=
  (graph.names.map fun name => if name ∈ wanted then 0 else 1).sum

theorem unmarked_cons {name : ν} {node : α} {wanted : List ν} (hnode : graph.find name = some node)
    (hnew : name ∉ wanted) : graph.unmarked (name :: wanted) < graph.unmarked wanted := by
  have hname : name ∈ graph.names := graph.named name (by rw [hnode]; rfl)
  have := sum_unmarked_cons (fun _ => 1) hname hnew
  unfold Graph.unmarked
  omega

/-- Every node that goes onto the stack is one name less to mark. -/
theorem mark_decreases (names : List ν) (state : List α × List ν) :
    (mark graph names state).1.length + graph.unmarked (mark graph names state).2 ≤
      state.1.length + graph.unmarked state.2 := by
  fun_induction mark graph names state with
  | case1 => exact le_rfl
  | case2 _ _ _ _ ih => exact ih
  | case3 _ _ _ _ _ _ ih => exact ih
  | case4 name names state node hnode hnew ih =>
      have hless := unmarked_cons graph hnode hnew
      simp only [List.length_append, List.length_singleton] at ih
      omega

/-- The names marked, where the nodes on the stack are still to be looked at. -/
def collect (stack : List α) (wanted : List ν) : List ν :=
  match _hlast : stack.getLast? with
  | none => wanted
  | some node =>
      collect (mark graph (graph.references node) (stack.dropLast, wanted)).1
        (mark graph (graph.references node) (stack.dropLast, wanted)).2
termination_by stack.length + graph.unmarked wanted
decreasing_by
  have hmark := mark_decreases graph (graph.references node) (stack.dropLast, wanted)
  have hpositive : 0 < stack.length := by
    refine List.length_pos_of_ne_nil fun hempty => ?_
    rw [hempty] at _hlast
    cases _hlast
  simp only [List.length_dropLast] at hmark
  omega

variable {graph}

theorem mem_mark {names : List ν} {state : List α × List ν} {name : ν} :
    name ∈ (mark graph names state).2 ↔
      name ∈ state.2 ∨ name ∈ names ∧ ∃ node, graph.find name = some node := by
  fun_induction mark graph names state with
  | case1 => simp
  | case2 head names state hhead ih =>
      rw [ih, List.mem_cons]
      refine or_congr_right (and_congr_left fun hnode => (or_iff_right fun hsame => ?_).symm)
      rw [hsame, hhead] at hnode
      obtain ⟨node, hnode⟩ := hnode
      cases hnode
  | case3 head names state node hhead hold ih =>
      rw [ih, List.mem_cons]
      constructor
      · exact Or.imp_right (And.imp_left .inr)
      · rintro (hmarked | ⟨rfl | hname, hnode⟩)
        · exact .inl hmarked
        · exact .inl hold
        · exact .inr ⟨hname, hnode⟩
  | case4 head names state node hhead hnew ih =>
      rw [ih, List.mem_cons, List.mem_cons]
      constructor
      · rintro ((rfl | hmarked) | ⟨hname, hnode⟩)
        · exact .inr ⟨.inl rfl, node, hhead⟩
        · exact .inl hmarked
        · exact .inr ⟨.inr hname, hnode⟩
      · rintro (hmarked | ⟨rfl | hname, hnode⟩)
        · exact .inl (.inr hmarked)
        · exact .inl (.inl rfl)
        · exact .inr ⟨hname, hnode⟩

/-- What is marked now has its node on the stack, and the stack only grows. -/
theorem stack_mark {names : List ν} {state : List α × List ν} :
    (∀ node ∈ state.1, node ∈ (mark graph names state).1) ∧
      ∀ name ∈ (mark graph names state).2, ∀ node, graph.find name = some node →
        name ∈ state.2 ∨ node ∈ (mark graph names state).1 := by
  fun_induction mark graph names state with
  | case1 state => exact ⟨fun _ h => h, fun _ h _ _ => .inl h⟩
  | case2 _ _ _ _ ih => exact ih
  | case3 _ _ _ _ _ _ ih => exact ih
  | case4 head names state node hhead hnew ih =>
      refine ⟨fun other hother => ih.1 other (List.mem_append_left [node] hother),
        fun name hname found hfound => ?_⟩
      rcases ih.2 name hname found hfound with hmarked | hstack
      · rcases List.mem_cons.mp hmarked with rfl | hmarked
        · rw [hhead] at hfound
          cases hfound
          exact .inr (ih.1 node (List.mem_append_right state.1 (List.mem_singleton_self node)))
        · exact .inl hmarked
      · exact .inr hstack

/-- The stack gets nodes of the names looked at, and no others. -/
theorem mem_stack_mark {names : List ν} {state : List α × List ν} {node : α}
    (h : node ∈ (mark graph names state).1) :
    node ∈ state.1 ∨ ∃ name ∈ names, graph.find name = some node := by
  fun_induction mark graph names state with
  | case1 => exact .inl h
  | case2 head names state hhead ih =>
      refine (ih h).imp_right fun hfound => ?_
      obtain ⟨name, hname, hnode⟩ := hfound
      exact ⟨name, List.mem_cons_of_mem head hname, hnode⟩
  | case3 head names state _ hhead hold ih =>
      refine (ih h).imp_right fun hfound => ?_
      obtain ⟨name, hname, hnode⟩ := hfound
      exact ⟨name, List.mem_cons_of_mem head hname, hnode⟩
  | case4 head names state found hhead hnew ih =>
      rcases ih h with hstack | ⟨name, hname, hnode⟩
      · rcases List.mem_append.mp hstack with hstack | hpushed
        · exact .inl hstack
        · rw [List.mem_singleton] at hpushed
          exact .inr ⟨head, List.mem_cons_self, hpushed ▸ hhead⟩
      · exact .inr ⟨name, List.mem_cons_of_mem head hname, hnode⟩

/-- What the node refers to is in the set, where it is there. -/
def Scanned (graph : Graph ν α) (names : ν → Prop) (node : α) : Prop :=
  ∀ other ∈ graph.references node, ∀ target, graph.find other = some target → names other

theorem subset_collect {stack : List α} {wanted : List ν} :
    ∀ name ∈ wanted, name ∈ collect graph stack wanted := by
  fun_induction collect graph stack wanted with
  | case1 => exact fun name hname => hname
  | case2 stack wanted node hlast ih =>
      exact fun name hname => ih name (mem_mark.mpr (.inl hname))

/-- Where everything marked is scanned or on the stack, everything found is scanned, and so
is everything that was on the stack. -/
theorem scanned_collect {stack : List α} {wanted : List ν}
    (h : ∀ name ∈ wanted, ∀ node, graph.find name = some node →
      node ∈ stack ∨ Scanned graph (· ∈ wanted) node) :
    (∀ node ∈ stack, Scanned graph (· ∈ collect graph stack wanted) node) ∧
      ∀ name ∈ collect graph stack wanted, ∀ node, graph.find name = some node →
        Scanned graph (· ∈ collect graph stack wanted) node := by
  fun_induction collect graph stack wanted with
  | case1 stack wanted hempty =>
      rw [List.getLast?_eq_none_iff] at hempty
      subst hempty
      refine ⟨fun node hnode => absurd hnode List.not_mem_nil, fun name hname node hnode => ?_⟩
      exact (h name hname node hnode).resolve_left List.not_mem_nil
  | case2 stack wanted node hlast ih =>
      have hstack : ∀ other ∈ stack, other = node ∨ other ∈ stack.dropLast := by
        intro other hother
        rw [← List.dropLast_append_getLast? node hlast, List.mem_append,
          List.mem_singleton] at hother
        exact hother.symm
      -- the node that is taken off is scanned by what it marks
      have hnode : Scanned graph
          (· ∈ (mark graph (graph.references node) (stack.dropLast, wanted)).2) node :=
        fun other hother target htarget => mem_mark.mpr (.inr ⟨hother, target, htarget⟩)
      have hmono : ∀ other, Scanned graph (· ∈ wanted) other → Scanned graph
          (· ∈ (mark graph (graph.references node) (stack.dropLast, wanted)).2) other :=
        fun other hscanned next hnext target htarget =>
          mem_mark.mpr (.inl (hscanned next hnext target htarget))
      have hrest := ih fun name hname found hfound => by
        rcases stack_mark.2 name hname found hfound with hmarked | hpushed
        · rcases h name hmarked found hfound with hfound | hscanned
          · rcases hstack found hfound with rfl | hfound
            · exact .inr hnode
            · exact .inl (stack_mark.1 found hfound)
          · exact .inr (hmono found hscanned)
        · exact .inl hpushed
      refine ⟨fun other hother => ?_, hrest.2⟩
      rcases hstack other hother with rfl | hother
      · exact fun next hnext target htarget => subset_collect next (hnode next hnext target htarget)
      · exact hrest.1 other (stack_mark.1 other hother)

/-- What is found is in every set that is closed under references and has what was marked
before and what the nodes on the stack refer to. -/
theorem collect_subset {stack : List α} {wanted : List ν} {names : ν → Prop}
    (hclosed : ∀ name, names name → ∀ node, graph.find name = some node →
      Scanned graph names node)
    (hstack : ∀ node ∈ stack, Scanned graph names node) (hwanted : ∀ name ∈ wanted, names name) :
    ∀ name ∈ collect graph stack wanted, names name := by
  fun_induction collect graph stack wanted with
  | case1 => exact hwanted
  | case2 stack wanted node hlast ih =>
      have hscanned := hstack node (List.mem_of_getLast? hlast)
      refine ih (fun other hother => ?_) fun name hname => ?_
      · rcases mem_stack_mark hother with hother | ⟨name, hname, hfound⟩
        · exact hstack other (List.dropLast_subset stack hother)
        · exact hclosed name (hscanned name hname other hfound) other hfound
      · rcases mem_mark.mp hname with hname | ⟨hname, target, htarget⟩
        · exact hwanted name hname
        · exact hscanned name hname target htarget

/-- **The collection finds what is reachable** from what its first node refers to. -/
theorem mem_collect_iff {start : α} {name : ν} :
    name ∈ collect graph [start] [] ↔ Reaches graph (graph.references start) name := by
  have hscanned : _ ∧ ∀ name ∈ collect graph [start] [], _ :=
    scanned_collect fun _ h => absurd h List.not_mem_nil
  constructor
  · refine collect_subset (fun name hname node hnode other hother target htarget =>
      .step hname hnode hother htarget) (fun node hnode => ?_)
      (fun _ h => absurd h List.not_mem_nil) name
    rw [List.mem_singleton] at hnode
    subst hnode
    exact fun other hother target htarget => .root hother htarget
  · intro h
    have hclosed : Closed graph (graph.references start) fun name =>
        name ∈ collect graph [start] [] :=
      ⟨fun other hother target => hscanned.1 start (List.mem_singleton_self start) other hother
        target, fun other hother node hnode => hscanned.2 other hother node hnode⟩
    exact hclosed.of_reaches h

end Search

end Worklist
