import Mathlib.Algebra.Order.BigOperators.Group.List
import Mathlib.Algebra.Order.Ring.Int
import Mathlib.Data.Set.Finite.Basic
import Mathlib.Order.WellFounded

/-!
# Topological sorting by indegrees

A worklist of nodes with no open incoming edge is drained: a node is taken from it, and each of its
outgoing edges lowers the degree of its target, which joins the worklist at zero. All nodes are
visited exactly when the graph has no cycle.
-/

namespace Topological

open Function

variable {α : Type} [DecidableEq α]

structure Worklist (α : Type) where
  degree : α → Int
  ready : List α

def release (work : Worklist α) (target : α) : Worklist α where
  degree := update work.degree target (work.degree target - 1)
  ready := if work.degree target - 1 = 0 then work.ready ++ [target] else work.ready

theorem release_degree_self (work : Worklist α) (t : α) :
    (release work t).degree t = work.degree t - 1 := update_self ..

variable {t x : α} {done : List α} {work : Worklist α}

theorem release_degree_of_ne (work : Worklist α) {u : α} (h : t ≠ u) :
    (release work u).degree t = work.degree t := update_of_ne h ..

/-- Visits ready nodes, at most `fuel` of them, and counts them. -/
def drain (pop : List α → Option (α × List α)) (targets : α → List α) :
    Nat → Worklist α → Nat → Option Nat
  | 0, work, visited => if (pop work.ready).isNone then some visited else none
  | fuel + 1, work, visited =>
    match pop work.ready with
    | none => some visited
    | some (node, rest) =>
      drain pop targets fuel ((targets node).foldl release ⟨work.degree, rest⟩) (visited + 1)

def Pops (pop : List α → Option (α × List α)) : Prop :=
  ∀ l, (l = [] ∧ pop l = none) ∨ ∃ x rest, pop l = some (x, rest) ∧ (x :: rest).Perm l

def popFirst : List α → Option (α × List α)
  | [] => none
  | x :: l => some (x, l)

def popLast (l : List α) : Option (α × List α) := l.getLast?.map fun x => (x, l.dropLast)

omit [DecidableEq α] in
theorem pops_popFirst : Pops (popFirst : List α → Option (α × List α)) := by
  intro l
  cases l with
  | nil => exact .inl ⟨rfl, rfl⟩
  | cons x l => exact .inr ⟨x, l, rfl, .refl _⟩

omit [DecidableEq α] in
theorem pops_popLast : Pops (popLast : List α → Option (α × List α)) := by
  intro l
  cases l using List.reverseRecOn with
  | nil => exact .inl ⟨rfl, rfl⟩
  | append_singleton l x =>
    refine .inr ⟨x, l, by simp [popLast], ?_⟩
    exact (List.perm_append_comm : ([x] ++ l).Perm (l ++ [x]))

def Edge (nodes : List α) (targets : α → List α) (x t : α) : Prop := x ∈ nodes ∧ t ∈ targets x

def indegree (nodes : List α) (targets : α → List α) (t : α) : Int :=
  (nodes.map fun x => ((targets x).count t : Int)).sum

section Indegree

variable {nodes : List α} {targets : α → List α}
  (nodes targets) in
theorem indegree_nonneg (t : α) : 0 ≤ indegree nodes targets t := by
  apply List.sum_nonneg
  intro n hn
  obtain ⟨x, -, rfl⟩ := List.mem_map.1 hn
  exact Int.natCast_nonneg _

theorem count_le_indegree (hx : x ∈ nodes) (t : α) :
    ((targets x).count t : Int) ≤ indegree nodes targets t := by
  apply List.single_le_sum
  · intro n hn
    obtain ⟨z, -, rfl⟩ := List.mem_map.1 hn
    exact Int.natCast_nonneg _
  · exact List.mem_map_of_mem hx

theorem indegree_empty (t : α) : indegree nodes (fun _ => []) t = 0 := by
  simp [indegree]

theorem indegree_congr {targets' : α → List α}
    (h : ∀ x ∈ nodes, ∀ t, (targets x).count t = (targets' x).count t) (t : α) :
    indegree nodes targets t = indegree nodes targets' t := by
  rw [indegree, indegree]
  congr 1
  apply List.map_congr_left
  intro x hx
  rw [h x hx]

theorem indegree_update (hnodup : nodes.Nodup) (hx : x ∈ nodes) (t t' : α) :
    indegree nodes (update targets x (targets x ++ [t])) t' =
      indegree nodes targets t' + if t' = t then 1 else 0 := by
  induction nodes with
  | nil => cases hx
  | cons y nodes ih =>
    obtain ⟨hy, hrest⟩ := List.nodup_cons.1 hnodup
    simp only [indegree, List.map_cons, List.sum_cons] at ih ⊢
    by_cases hxy : y = x
    · subst hxy
      have hothers : nodes.map (fun x => ((update targets y (targets y ++ [t]) x).count t' : Int)) =
          nodes.map fun x => ((targets x).count t' : Int) := by
        apply List.map_congr_left
        intro z hz
        have hne : z ≠ y := fun heq => hy (heq ▸ hz)
        rw [update_of_ne hne]
      rw [hothers, update_self, List.count_append, List.count_singleton]
      by_cases ht : t' = t
      · simp [ht]
        omega
      · have hne : (t == t') = false := by simpa using fun heq => ht heq.symm
        simp [ht, hne]
    · rw [update_of_ne hxy,
        ih hrest ((List.mem_cons.1 hx).resolve_left fun heq => hxy heq.symm)]
      omega

theorem indegree_eq_count (nodes : List α) (targets : α → List α) (t : α) :
    indegree nodes targets t = ((nodes.flatMap targets).count t : Int) := by
  induction nodes with
  | nil => rfl
  | cons x nodes ih =>
    rw [List.flatMap_cons, List.count_append, indegree, List.map_cons, List.sum_cons, ← indegree, ih]
    simp

end Indegree

section Drain

variable {nodes : List α} {targets : α → List α}

theorem release_foldl_degree (l : List α) (work : Worklist α) (t : α) :
    (l.foldl release work).degree t = work.degree t - l.count t := by
  induction l generalizing work with
  | nil => simp
  | cons u l ih =>
    rw [List.foldl_cons, ih]
    by_cases htu : t = u
    · subst htu
      rw [release_degree_self, List.count_cons_self]
      omega
    · rw [release_degree_of_ne work htu, List.count_cons_of_ne fun heq => htu heq.symm]

theorem release_foldl_ready (l : List α) (work : Worklist α)
    (h : ∀ t ∈ l, (l.count t : Int) ≤ work.degree t) (t : α) :
    (l.foldl release work).ready.count t =
      work.ready.count t + if 0 < l.count t ∧ work.degree t = l.count t then 1 else 0 := by
  induction l generalizing work with
  | nil => simp
  | cons u l ih =>
    have hu := h u (by simp)
    rw [List.count_cons_self] at hu
    have hrest : ∀ t ∈ l, (l.count t : Int) ≤ (release work u).degree t := by
      intro t ht
      have hcount := h t (by simp [ht])
      by_cases htu : t = u
      · subst htu
        rw [List.count_cons_self] at hcount
        rw [release_degree_self]
        omega
      · rw [List.count_cons_of_ne fun heq => htu heq.symm] at hcount
        rwa [release_degree_of_ne work htu]
    rw [List.foldl_cons, ih _ hrest]
    by_cases htu : t = u
    · subst htu
      rw [release_degree_self, List.count_cons_self]
      by_cases hlast : work.degree t - 1 = 0
      · have hzero : l.count t = 0 := by omega
        have hone : work.degree t = 1 := by omega
        simp [release, hzero, hone]
      · simp only [release, hlast, if_false]
        have hiff : (0 < l.count t ∧ work.degree t - 1 = l.count t) ↔
            (0 < l.count t + 1 ∧ work.degree t = ((l.count t + 1 : Nat) : Int)) := by
          constructor
          · intro hboth
            exact ⟨by omega, by omega⟩
          · intro hboth
            exact ⟨by omega, by omega⟩
        simp only [hiff]
    · rw [release_degree_of_ne work htu, List.count_cons_of_ne fun heq => htu heq.symm]
      congr 1
      rw [release]
      dsimp only
      split
      · rw [List.count_append, List.count_singleton]
        have hne : (u == t) = false := by simpa using fun heq => htu heq.symm
        simp [hne]
      · rfl

/-- The state of a run that has visited `done`: the degrees count the edges from nodes that are still
to be visited, and the nodes at zero are those visited or ready. -/
structure Sorting (nodes : List α) (targets : α → List α) (work : Worklist α) (done : List α) : Prop where
  degree : ∀ t ∈ nodes, work.degree t = indegree (nodes.filter (· ∉ done)) targets t
  zero : ∀ t, (done ++ work.ready).count t = if t ∈ nodes ∧ work.degree t = 0 then 1 else 0
  acyclic : ∀ t ∈ done ++ work.ready, ¬ Relation.TransGen (Edge nodes targets) t t

theorem Sorting.mem (h : Sorting nodes targets work done) :
    t ∈ done ++ work.ready ↔ t ∈ nodes ∧ work.degree t = 0 := by
  rw [← List.count_pos_iff, h.zero]
  split <;> simp_all

theorem Sorting.nodup (h : Sorting nodes targets work done) : (done ++ work.ready).Nodup := by
  apply List.nodup_iff_count_le_one.2
  intro t
  rw [h.zero]
  split <;> omega

omit [DecidableEq α] in
theorem not_cycle {R : α → α → Prop} (h : ∀ x, R x t → ¬ Relation.TransGen R x x) :
    ¬ Relation.TransGen R t t := by
  intro hcycle
  obtain ⟨x, hpath, hedge⟩ := Relation.TransGen.tail'_iff.1 hcycle
  exact h x hedge (Relation.TransGen.head' hedge hpath)

theorem indegree_visit (hnodup : nodes.Nodup) (hx : x ∈ nodes) (hdone : x ∉ done)
    (t : α) : indegree (nodes.filter (· ∉ done)) targets t =
      indegree (nodes.filter (· ∉ x :: done)) targets t + (targets x).count t := by
  induction nodes with
  | nil => cases hx
  | cons y nodes ih =>
    obtain ⟨hy, hrest⟩ := List.nodup_cons.1 hnodup
    by_cases hxy : y = x
    · subst hxy
      have hsame : nodes.filter (· ∉ y :: done) = nodes.filter (· ∉ done) := by
        apply List.filter_congr
        intro z hz
        have hne : z ≠ y := fun heq => hy (heq ▸ hz)
        simp [hne]
      rw [List.filter_cons_of_pos (by simpa using hdone), List.filter_cons_of_neg (by simp), hsame]
      simp only [indegree, List.map_cons, List.sum_cons]
      omega
    · have hmem := (List.mem_cons.1 hx).resolve_left fun heq => hxy heq.symm
      by_cases hyd : y ∈ done
      · rw [List.filter_cons_of_neg (by simpa using hyd), List.filter_cons_of_neg (by simp [hyd]),
          ih hrest hmem]
      · rw [List.filter_cons_of_pos (by simpa using hyd),
          List.filter_cons_of_pos (by simp [hyd, hxy])]
        have hsum := ih hrest hmem
        simp only [indegree, List.map_cons, List.sum_cons] at hsum ⊢
        omega

variable (hnodup : nodes.Nodup) (hclosed : ∀ x ∈ nodes, ∀ t ∈ targets x, t ∈ nodes)

include hnodup hclosed in
theorem Sorting.visit (h : Sorting nodes targets work done) {rest : List α}
    (hpop : (x :: rest).Perm work.ready) :
    Sorting nodes targets ((targets x).foldl release ⟨work.degree, rest⟩) (x :: done) := by
  have hready : x ∈ done ++ work.ready := by simp [← hpop.mem_iff]
  obtain ⟨hx, -⟩ := h.mem.1 hready
  have hdone : x ∉ done := by
    intro hmem
    have hdisjoint := (List.nodup_append.1 h.nodup).2.2
    exact hdisjoint x hmem x (hpop.mem_iff.1 (by simp)) rfl
  have hsum : ∀ t ∈ nodes, work.degree t =
      indegree (nodes.filter (· ∉ x :: done)) targets t + (targets x).count t := by
    intro t ht
    rw [h.degree t ht, indegree_visit hnodup hx hdone]
  have hcount : ∀ t ∈ targets x, ((targets x).count t : Int) ≤ work.degree t := by
    intro t ht
    have hnonneg := indegree_nonneg (nodes.filter (· ∉ x :: done)) targets t
    have hdegree := hsum t (hclosed x hx t ht)
    omega
  have hdegree : ∀ t ∈ nodes, ((targets x).foldl release ⟨work.degree, rest⟩).degree t =
      indegree (nodes.filter (· ∉ x :: done)) targets t := by
    intro t ht
    have hsum := hsum t ht
    rw [release_foldl_degree]
    dsimp only
    omega
  have hzero : ∀ t, (x :: done ++ ((targets x).foldl release ⟨work.degree, rest⟩).ready).count t =
      if t ∈ nodes ∧ ((targets x).foldl release ⟨work.degree, rest⟩).degree t = 0 then 1 else 0 := by
    intro t
    have hbefore := h.zero t
    rw [List.count_append, ← hpop.count_eq] at hbefore
    rw [List.count_append, release_foldl_ready _ ⟨work.degree, rest⟩ hcount, release_foldl_degree]
    simp only [List.count_cons] at hbefore ⊢
    by_cases ht : t ∈ nodes
    · have hsum := hsum t ht
      have hnonneg := indegree_nonneg (nodes.filter (· ∉ x :: done)) targets t
      by_cases hpos : 0 < (targets x).count t
      · have hne : work.degree t ≠ 0 := by omega
        simp only [ht, hne, true_and, if_false] at hbefore
        by_cases hlast : work.degree t = (targets x).count t
        · simp only [hpos, hlast, ht, true_and, if_true, sub_self]
          omega
        · have hleft : work.degree t - (targets x).count t ≠ 0 := by omega
          simp only [hpos, hlast, ht, hleft, true_and, if_false]
          omega
      · have hnone : (targets x).count t = 0 := by omega
        have hleft : work.degree t - ((targets x).count t : Int) = work.degree t := by omega
        simp only [hpos, hleft, false_and, if_false]
        omega
    · have hnone : (targets x).count t = 0 := by
        apply List.count_eq_zero.2
        intro hmem
        exact ht (hclosed x hx t hmem)
      simp only [hnone, ht, false_and, if_false, lt_self_iff_false] at hbefore ⊢
      omega
  refine ⟨hdegree, hzero, ?_⟩
  intro t ht
  by_cases hold : t ∈ done ++ work.ready
  · exact h.acyclic t hold
  · -- all nodes with an edge to `t` have been visited
    have hpos := List.count_pos_iff.2 ht
    rw [hzero] at hpos
    split at hpos
    · next hnew =>
        apply not_cycle
        intro y hedge
        apply h.acyclic y
        by_contra hopen
        have hy : y ∈ nodes.filter (· ∉ x :: done) := by
          refine List.mem_filter.2 ⟨hedge.1, ?_⟩
          have hyx : y ≠ x := fun heq => hopen (heq ▸ hready)
          have hyd : y ∉ done := fun hmem => hopen (List.mem_append_left _ hmem)
          simp [hyx, hyd]
        have hle : ((targets y).count t : Int) ≤ indegree (nodes.filter (· ∉ x :: done)) targets t :=
          count_le_indegree hy t
        rw [← hdegree t hnew.1, hnew.2] at hle
        have hcount := List.count_pos_iff.2 hedge.2
        omega
    · cases hpos

theorem Sorting.all_done (h : Sorting nodes targets work done)
    (hready : work.ready = []) (hacyclic : ∀ t, ¬ Relation.TransGen (Edge nodes targets) t t) :
    ∀ t ∈ nodes, t ∈ done := by
  by_contra hleft
  push Not at hleft
  have hwf : WellFounded fun x t : {x // x ∈ nodes} => Relation.TransGen (Edge nodes targets) x.val t.val := by
    have : IsTrans {x // x ∈ nodes} fun x t => Relation.TransGen (Edge nodes targets) x.val t.val :=
      ⟨fun _ _ _ hxt htu => hxt.trans htu⟩
    have : Std.Irrefl fun x t : {x // x ∈ nodes} =>
        Relation.TransGen (Edge nodes targets) x.val t.val := ⟨fun t => hacyclic t.val⟩
    exact Finite.wellFounded_of_trans_of_irrefl _
  obtain ⟨t, ht, hopen⟩ := hleft
  obtain ⟨⟨t, ht⟩, hopen, hleast⟩ := hwf.has_min {t | t.val ∉ done} ⟨⟨t, ht⟩, hopen⟩
  -- a node with the last open edge to it would be before it
  have hdegree : work.degree t ≠ 0 := by
    intro hzero
    have hmem := h.mem.2 ⟨ht, hzero⟩
    rw [hready, List.append_nil] at hmem
    exact hopen hmem
  apply hdegree
  rw [h.degree t ht, indegree]
  apply List.sum_eq_zero
  intro n hn
  obtain ⟨x, hx, rfl⟩ := List.mem_map.1 hn
  obtain ⟨hx, hxd⟩ := List.mem_filter.1 hx
  have hnone : t ∉ targets x := by
    intro hmem
    exact hleast ⟨x, hx⟩ (by simpa using hxd) (.single ⟨hx, hmem⟩)
  rw [List.count_eq_zero.2 hnone]
  rfl

include hnodup hclosed in
theorem Sorting.stop (h : Sorting nodes targets work done) (hready : work.ready = []) :
    done.length = nodes.length ↔ ∀ t, ¬ Relation.TransGen (Edge nodes targets) t t := by
  have hsubset : done ⊆ nodes := fun t ht => (h.mem.1 (List.mem_append_left _ ht)).1
  have hsubperm := (List.nodup_append.1 h.nodup).1.subperm hsubset
  constructor
  · intro hlength t hcycle
    have hperm := hsubperm.perm_of_length_le (by omega)
    obtain ⟨x, -, hedge⟩ := Relation.TransGen.tail'_iff.1 hcycle
    have hdone := hperm.mem_iff.2 (hclosed x hedge.1 t hedge.2)
    exact h.acyclic t (List.mem_append_left _ hdone) hcycle
  · intro hacyclic
    have hback := hnodup.subperm (h.all_done hready hacyclic)
    exact le_antisymm hsubperm.length_le hback.length_le

include hnodup hclosed in
theorem Sorting.drain {pop : List α → Option (α × List α)} (hpops : Pops pop) {fuel : Nat}
    (h : Sorting nodes targets work done)
    (hfuel : nodes.length ≤ done.length + fuel) :
    ∃ visited, drain pop targets fuel work done.length = some visited ∧
      (visited = nodes.length ↔ ∀ t, ¬ Relation.TransGen (Edge nodes targets) t t) := by
  induction fuel generalizing work done with
  | zero =>
    rcases hpops work.ready with ⟨hready, hnone⟩ | ⟨x, rest, -, hperm⟩
    · exact ⟨done.length, by simp [Topological.drain, hnone], h.stop hnodup hclosed hready⟩
    · -- a ready node is one more than there are
      have hsubset : done ++ work.ready ⊆ nodes := fun t ht => (h.mem.1 ht).1
      have hlength := (h.nodup.subperm hsubset).length_le
      rw [List.length_append, ← hperm.length_eq, List.length_cons] at hlength
      omega
  | succ fuel ih =>
    rcases hpops work.ready with ⟨hready, hnone⟩ | ⟨x, rest, hpop, hperm⟩
    · exact ⟨done.length, by simp [Topological.drain, hnone], h.stop hnodup hclosed hready⟩
    · have hnext := h.visit hnodup hclosed hperm
      simp only [Topological.drain, hpop]
      exact ih hnext (by rw [List.length_cons]; omega)

include hnodup hclosed in
/-- From the degrees of the graph and the nodes at zero, in any order, the run ends, and it has counted
all nodes exactly if there is no cycle. -/
theorem drain_eq_length_iff {pop : List α → Option (α × List α)} (hpops : Pops pop) {degree : α → Int}
    (hdegree : ∀ t, degree t = indegree nodes targets t) {ready : List α}
    (hready : ready.Perm (nodes.filter (degree · = 0))) :
    ∃ visited, drain pop targets nodes.length ⟨degree, ready⟩ 0 = some visited ∧
      (visited = nodes.length ↔ ∀ t, ¬ Relation.TransGen (Edge nodes targets) t t) := by
  have hmem : ∀ t, t ∈ ready ↔ t ∈ nodes ∧ degree t = 0 := by
    intro t
    rw [hready.mem_iff, List.mem_filter, decide_eq_true_iff]
  have hstart : Sorting nodes targets ⟨degree, ready⟩ [] := by
    constructor
    · intro t _
      simp [hdegree]
    · intro t
      have hle := List.nodup_iff_count_le_one.1 (hready.nodup_iff.2 (hnodup.filter _)) t
      change ready.count t = if t ∈ nodes ∧ degree t = 0 then 1 else 0
      by_cases ht : t ∈ ready
      · have hpos := List.count_pos_iff.2 ht
        rw [if_pos ((hmem t).1 ht)]
        omega
      · rw [if_neg fun h => ht ((hmem t).2 h)]
        exact List.count_eq_zero.2 ht
    · intro t ht
      have hzero := ((hmem t).1 (by simpa using ht)).2
      apply not_cycle
      intro x hedge
      have hle : ((targets x).count t : Int) ≤ indegree nodes targets t :=
        count_le_indegree hedge.1 t
      have hcount := List.count_pos_iff.2 hedge.2
      rw [← hdegree t, hzero] at hle
      omega
  exact hstart.drain hnodup hclosed hpops (by simp)

end Drain

end Topological
