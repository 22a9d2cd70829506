import Mathlib.Data.List.Induction
import Mathlib.Data.List.Sort

/-!
# Lists sorted by a key and lists split into fibres

With distinct keys there is one sorted arrangement of a list, so that two programs that sort and
filter the same elements in different orders end with the same list.
-/

namespace KeySort

variable {α κ : Type} [LinearOrder κ]

def sortedBy (key : α → κ) (l : List α) : List α := l.insertionSort fun a b => key a ≤ key b

def Rising (key : α → κ) (l : List α) : Prop := l.Pairwise fun a b => key a < key b

variable {key : α → κ} {l m : List α}

theorem sortedBy_perm : (sortedBy key l).Perm l := List.perm_insertionSort ..

@[simp] theorem mem_sortedBy {a : α} : a ∈ sortedBy key l ↔ a ∈ l := sortedBy_perm.mem_iff

theorem Rising.filter (h : Rising key l) (p : α → Bool) : Rising key (l.filter p) :=
  List.Pairwise.filter p h

theorem Rising.eq_of_perm (hl : Rising key l) (hm : Rising key m) (hperm : l.Perm m) : l = m := by
  refine List.Perm.eq_of_pairwise ?_ hl hm hperm
  intro a b _ _ hab hba
  exact absurd hba (lt_asymm hab)

theorem Rising.nodup_map (h : Rising key l) : (l.map key).Nodup :=
  List.pairwise_map.2 (List.Pairwise.imp ne_of_lt h)

theorem rising_sortedBy (hdistinct : (l.map key).Nodup) : Rising key (sortedBy key l) := by
  have hkeys : (sortedBy key l).Pairwise fun a b => key a ≠ key b :=
    List.pairwise_map.1 ((sortedBy_perm.map key).nodup_iff.2 hdistinct)
  have hsorted : (sortedBy key l).Pairwise fun a b => key a ≤ key b :=
    List.pairwise_insertionSort (fun a b => key a ≤ key b) l
  exact (hsorted.and hkeys).imp fun h => lt_of_le_of_ne h.1 h.2

theorem Rising.eq_sortedBy (hm : Rising key m) (hdistinct : (l.map key).Nodup) (hperm : m.Perm l) :
    m = sortedBy key l :=
  hm.eq_of_perm (rising_sortedBy hdistinct) (hperm.trans sortedBy_perm.symm)

theorem sortedBy_eq_of_perm (hdistinct : (l.map key).Nodup) (hperm : m.Perm l) :
    sortedBy key m = sortedBy key l :=
  (rising_sortedBy ((hperm.map key).nodup_iff.2 hdistinct)).eq_sortedBy hdistinct
    (sortedBy_perm.trans hperm)

theorem sortedBy_eq_of_lt {κ' : Type} [LinearOrder κ'] {key' : α → κ'} (hdistinct : (l.map key).Nodup)
    (hlt : ∀ a ∈ l, ∀ b ∈ l, key a < key b → key' a < key' b) : sortedBy key' l = sortedBy key l := by
  have hrising : Rising key' (sortedBy key l) := by
    refine List.Pairwise.imp_of_mem ?_ (rising_sortedBy hdistinct)
    intro a b ha hb hab
    exact hlt a (mem_sortedBy.1 ha) b (mem_sortedBy.1 hb) hab
  exact (hrising.eq_sortedBy ((sortedBy_perm.map key').nodup_iff.1 hrising.nodup_map) sortedBy_perm).symm

theorem map_sortedBy {β : Type} (f : α → β) (key : β → κ) (l : List α) :
    (sortedBy (fun a => key (f a)) l).map f = sortedBy key (l.map f) :=
  List.map_insertionSort _ _ f l fun _ _ _ _ => Iff.rfl

@[simp] theorem sortedBy_nil : sortedBy key [] = [] := rfl

@[simp] theorem sortedBy_toList (o : Option α) : sortedBy key o.toList = o.toList := by
  cases o <;> rfl

omit [LinearOrder κ] in
theorem nodup_map_filter (hdistinct : (l.map key).Nodup) (p : α → Bool) :
    ((l.filter p).map key).Nodup :=
  hdistinct.sublist (List.filter_sublist.map key)

theorem filter_sortedBy (hdistinct : (l.map key).Nodup) (p : α → Bool) :
    (sortedBy key l).filter p = sortedBy key (l.filter p) :=
  ((rising_sortedBy hdistinct).filter p).eq_sortedBy (nodup_map_filter hdistinct p)
    (sortedBy_perm.filter p)

theorem filter_eq_find? {p : α → Bool} (hone : l.Pairwise fun a b => ¬ (p a = true ∧ p b = true)) :
    l.filter p = (l.find? p).toList := by
  induction l with
  | nil => rfl
  | cons a l ih =>
    rw [List.pairwise_cons] at hone
    cases hp : p a with
    | false => rw [List.filter_cons_of_neg (by simp [hp]), List.find?_cons_of_neg (by simp [hp]), ih hone.2]
    | true =>
      have hnone : l.filter p = [] := by
        rw [List.filter_eq_nil_iff]
        intro b hb hpb
        exact hone.1 b hb ⟨hp, hpb⟩
      rw [List.filter_cons_of_pos hp, List.find?_cons_of_pos hp, hnone]
      rfl

/-- A list is split into the fibres of a relation that relates each element to at most one index, and
the elements that it relates to none. -/
theorem perm_fibres {ν : Type} {fits : ν → α → Bool} {nodes : List ν}
    (hone : ∀ a ∈ l, nodes.Pairwise fun n m => ¬ (fits n a = true ∧ fits m a = true)) :
    ((nodes.flatMap fun n => l.filter (fits n)) ++ l.filter fun a => !nodes.any (fits · a)).Perm l := by
  induction nodes generalizing l with
  | nil => simp
  | cons n nodes ih =>
    have hrest := @ih (l.filter fun a => !fits n a) fun a ha =>
      (List.pairwise_cons.1 (hone a (List.mem_of_mem_filter ha))).2
    have hfibre : ∀ m ∈ nodes, (l.filter fun a => !fits n a).filter (fits m) = l.filter (fits m) := by
      intro m hm
      rw [List.filter_filter]
      apply List.filter_congr
      intro a ha
      have := (List.pairwise_cons.1 (hone a ha)).1 m hm
      cases hn : fits n a <;> cases hfit : fits m a <;> simp_all
    have hnone : (l.filter fun a => !fits n a).filter (fun a => !nodes.any (fits · a)) =
        l.filter fun a => !(n :: nodes).any (fits · a) := by
      rw [List.filter_filter]
      apply List.filter_congr
      intro a ha
      simp [List.any_cons, Bool.not_or, Bool.and_comm]
    have hflat : (nodes.flatMap fun m => (l.filter fun a => !fits n a).filter (fits m)) =
        nodes.flatMap fun m => l.filter (fits m) := List.flatMap_congr hfibre
    rw [hflat, hnone] at hrest
    rw [List.flatMap_cons, List.append_assoc]
    exact (hrest.append_left _).trans (List.filter_append_perm (fits n) l)

section Unrepeated

def unrepeated [DecidableEq α] (l : List α) : List α :=
  l.foldl (fun unique a => if unique.getLast? = some a then unique else unique ++ [a]) []

variable {o : List κ} {a b : κ}

theorem unrepeated_concat (o : List κ) (a : κ) : unrepeated (o ++ [a]) =
    if (unrepeated o).getLast? = some a then unrepeated o else unrepeated o ++ [a] := by
  rw [unrepeated, List.foldl_append]
  rfl

theorem getLast?_unrepeated (o : List κ) : (unrepeated o).getLast? = o.getLast? := by
  induction o using List.reverseRecOn with
  | nil => rfl
  | append_singleton o a ih =>
    rw [unrepeated_concat, List.getLast?_concat]
    split_ifs with hlast
    · exact hlast
    · rw [List.getLast?_concat]

@[simp] theorem mem_unrepeated : b ∈ unrepeated o ↔ b ∈ o := by
  induction o using List.reverseRecOn generalizing b with
  | nil => rfl
  | append_singleton o a ih =>
    rw [unrepeated_concat]
    split_ifs with hlast
    · have hmem : a ∈ unrepeated o := List.mem_of_getLast? hlast
      rw [ih] at hmem ⊢
      simp only [List.mem_append, List.mem_singleton]
      exact ⟨.inl, fun h => h.elim id fun h => h ▸ hmem⟩
    · simp [ih]

theorem rising_unrepeated (h : o.Pairwise (· ≤ ·)) : Rising id (unrepeated o) := by
  induction o using List.reverseRecOn with
  | nil => exact .nil
  | append_singleton o a ih =>
    rw [List.pairwise_append] at h
    rw [unrepeated_concat]
    split_ifs with hlast
    · exact ih h.1
    · refine List.pairwise_append.2 ⟨ih h.1, List.pairwise_singleton _ _, ?_⟩
      intro b hb c hc
      obtain rfl := List.mem_singleton.1 hc
      rw [mem_unrepeated] at hb
      refine lt_of_le_of_ne (h.2.2 b hb c (by simp)) ?_
      -- the last element is the greatest so far, and it is not the new one
      rintro rfl
      apply hlast
      rw [getLast?_unrepeated]
      obtain ⟨init, last, rfl⟩ : ∃ init last, o = init ++ [last] :=
        ⟨o.dropLast, o.getLast (List.ne_nil_of_mem hb), (List.dropLast_append_getLast _).symm⟩
      have hle : last ≤ b := h.2.2 last (by simp) b (by simp)
      have hge : b ≤ last := by
        rcases List.mem_append.1 hb with hinit | hlast'
        · exact (List.pairwise_append.1 h.1).2.2 b hinit last (by simp)
        · exact (List.mem_singleton.1 hlast').le
      rw [List.getLast?_concat, le_antisymm hle hge, id]

end Unrepeated

end KeySort
