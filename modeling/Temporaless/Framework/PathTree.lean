import Mathlib.Data.List.Dedup
import Mathlib.Data.String.Basic

/-!
# Trees of slash-separated paths

A path is the list of its segments. Its text joins them by slashes, and segments without a slash can
be read back from it. A directory splits what lies below it into what it holds itself and what lies
below each of its children.
-/

namespace PathTree

abbrev Path := List String

def render (path : Path) : String := "/".intercalate path

def slashFree (segment : String) : Bool := !segment.toList.contains '/'

/-- A path whose text can be read back: it has segments, and none of them holds a slash. -/
def Legible (path : Path) : Prop := path ≠ [] ∧ ∀ s ∈ path, slashFree s = true

theorem splitOn_render {path : Path} (h : Legible path) :
    (render path).toList.splitOn '/' = path.map String.toList := by
  have hnot : ∀ l ∈ path.map String.toList, '/' ∉ l := by
    intro l hl
    obtain ⟨s, hs, rfl⟩ := List.mem_map.1 hl
    simpa [slashFree] using h.2 s hs
  have hslash : "/".toList = ['/'] := by decide
  rw [render, String.toList_intercalate, hslash]
  exact List.splitOn_intercalate '/' hnot (by simpa using h.1)

variable {p q : Path} {name : String}

private theorem map_toList_injective (h : p.map String.toList = q.map String.toList) :
    p = q := List.map_injective_iff.2 (fun _ _ => String.toList_inj.1) h

theorem render_injective (hp : Legible p) (hq : Legible q) (h : render p = render q) : p = q := by
  apply map_toList_injective
  rw [← splitOn_render hp, ← splitOn_render hq, h]

theorem toList_render_append (hp : p ≠ []) (hq : q ≠ []) :
    (render (p ++ q)).toList = (render p).toList ++ '/' :: (render q).toList := by
  have hslash : "/".toList = ['/'] := by decide
  simp only [render, String.toList_intercalate, hslash, List.map_append]
  induction p with
  | nil => exact absurd rfl hp
  | cons s p ih =>
    cases p with
    | nil =>
      rw [List.map_singleton, List.singleton_append,
        List.intercalate_cons_of_ne_nil (by simpa using hq), List.intercalate_singleton]
      simp
    | cons t p =>
      rw [List.map_cons, List.cons_append, List.intercalate_cons_of_ne_nil (by simp),
        ih (by simp), List.intercalate_cons_of_ne_nil (by simp)]
      simp

theorem split_render (hq : Legible q) {before after : List Char}
    (h : (render q).toList = before ++ '/' :: after) :
    q.map String.toList = before.splitOn '/' ++ after.splitOn '/' := by
  rw [← splitOn_render hq, h]
  exact List.splitOnP_append_cons before after (by decide)

theorem prefix_of_render (hp : Legible p) (hq : Legible q)
    (h : (render p ++ "/").toList <+: (render q).toList) : ∃ rest, rest ≠ [] ∧ q = p ++ rest := by
  obtain ⟨after, hafter⟩ := h
  have hslash : "/".toList = ['/'] := by decide
  rw [String.toList_append, hslash, List.append_assoc] at hafter
  have hsplit := split_render hq hafter.symm
  rw [splitOn_render hp, List.map_eq_append_iff] at hsplit
  obtain ⟨front, rest, hfront, hp', hrest⟩ := hsplit
  refine ⟨rest, ?_, ?_⟩
  · intro hnil
    rw [hnil] at hrest
    exact List.splitOn_ne_nil '/' after hrest.symm
  · rw [hfront, map_toList_injective hp']

private theorem splitOn_segment (h : slashFree name = true) :
    name.toList.splitOn '/' = [name.toList] := by
  have hlegible : Legible [name] := ⟨by simp, by simpa using h⟩
  simpa [render] using splitOn_render hlegible

theorem suffix_render_iff (hq : Legible q) (hname : slashFree name = true) :
    ("/" ++ name).toList <:+ (render q).toList ↔ q.tail.getLast? = some name := by
  have hslash : "/".toList = ['/'] := by decide
  rw [String.toList_append, hslash, List.singleton_append]
  constructor
  · intro h
    obtain ⟨before, hbefore⟩ := h
    have hsplit := split_render hq hbefore.symm
    rw [splitOn_segment hname, List.map_eq_append_iff] at hsplit
    obtain ⟨dir, last, rfl, hdir, hlast⟩ := hsplit
    obtain rfl : last = [name] := map_toList_injective hlast
    cases dir with
    | nil => exact absurd hdir.symm (List.splitOn_ne_nil '/' before)
    | cons first dir => simp
  · intro h
    obtain ⟨dir, hdir⟩ := List.getLast?_eq_some_iff.1 h
    cases q with
    | nil => simp at h
    | cons first q =>
      rw [List.tail_cons] at hdir
      rw [hdir, ← List.cons_append, toList_render_append (by simp) (by simp)]
      refine ⟨(render (first :: dir)).toList, ?_⟩
      simp [render]

theorem infix_render_iff (hq : Legible q) (hname : slashFree name = true) :
    ("/" ++ name ++ "/").toList <:+: (render q).toList ↔ name ∈ q.tail.dropLast := by
  have hslash : "/".toList = ['/'] := by decide
  rw [String.toList_append, String.toList_append, hslash]
  constructor
  · intro h
    obtain ⟨before, after, hboth⟩ := h
    have htext : (render q).toList = before ++ '/' :: (name.toList ++ '/' :: after) := by
      rw [← hboth]
      simp
    have hsplit := split_render hq htext
    have hmiddle : (name.toList ++ '/' :: after).splitOn '/' =
        name.toList :: after.splitOn '/' := by
      have happend : (name.toList ++ '/' :: after).splitOn '/' =
          name.toList.splitOn '/' ++ after.splitOn '/' :=
        List.splitOnP_append_cons name.toList after (by decide)
      rw [happend, splitOn_segment hname, List.singleton_append]
    rw [hmiddle, List.map_eq_append_iff] at hsplit
    obtain ⟨dir, tail, rfl, hdir, htail⟩ := hsplit
    obtain ⟨first, rest, rfl, hfirst, hrest⟩ := List.map_eq_cons_iff.1 htail
    obtain rfl := String.toList_inj.1 hfirst
    have hne : rest ≠ [] := by
      intro hnil
      rw [hnil] at hrest
      exact List.splitOn_ne_nil '/' after hrest.symm
    cases dir with
    | nil => exact absurd hdir.symm (List.splitOn_ne_nil '/' before)
    | cons top dir =>
      rw [List.cons_append, List.tail_cons, List.dropLast_append_of_ne_nil (by simp),
        List.dropLast_cons_of_ne_nil hne]
      simp
  · intro h
    cases q with
    | nil => simp at h
    | cons top q =>
      rw [List.tail_cons] at h
      obtain ⟨dir, rest, hsplit⟩ := List.append_of_mem h
      have hne : q ≠ [] := by
        intro hnil
        simp [hnil] at h
      have hq : top :: q = (top :: dir) ++ ([name] ++ (rest ++ [q.getLast hne])) := by
        have hlast := List.dropLast_append_getLast hne
        rw [hsplit] at hlast
        simpa using hlast.symm
      rw [hq, toList_render_append (by simp) (by simp), toList_render_append (by simp) (by simp)]
      refine ⟨(render (top :: dir)).toList, (render (rest ++ [q.getLast hne])).toList, ?_⟩
      simp [render]

/-- The names of the children of a directory, among the given locations. -/
def childNames (dir : Path) (locations : List Path) : List String :=
  (locations.filterMap fun p => if dir <+: p then (p.drop dir.length).head? else none).dedup

theorem mem_childNames {dir : Path} {locations : List Path} :
    name ∈ childNames dir locations ↔ ∃ p ∈ locations, dir ++ [name] <+: p := by
  simp only [childNames, List.mem_dedup, List.mem_filterMap]
  refine exists_congr fun p => and_congr_right fun _ => ?_
  constructor
  · intro h
    split at h
    · next hdir =>
        obtain ⟨rest, rfl⟩ := hdir
        rw [List.drop_left] at h
        obtain ⟨tail, rfl⟩ : ∃ tail, rest = name :: tail := by
          cases rest with
          | nil => simp at h
          | cons a tail => exact ⟨tail, by simpa using h⟩
        exact ⟨tail, by simp⟩
    · simp at h
  · rintro ⟨rest, rfl⟩
    simp

theorem nodup_childNames (dir : Path) (locations : List Path) :
    (childNames dir locations).Nodup := List.nodup_dedup _

section Partition

variable {τ : Type} (dir : Path) (location : τ → Path)

private theorem child_unique {s t : String} (hs : dir ++ [s] <+: p)
    (ht : dir ++ [t] <+: p) : s = t := by
  obtain ⟨rest, rfl⟩ := hs
  obtain ⟨rest', h⟩ := ht
  simp only [List.append_assoc, List.append_cancel_left_eq, List.singleton_append,
    List.cons.injEq] at h
  exact h.1.symm

private theorem below_iff (p : Path) : dir <+: p ↔ p = dir ∨ ∃ s, dir ++ [s] <+: p := by
  constructor
  · rintro ⟨rest, rfl⟩
    cases rest with
    | nil => exact Or.inl (by simp)
    | cons s tail => exact Or.inr ⟨s, tail, by simp⟩
  · rintro (rfl | ⟨s, rest, rfl⟩)
    · exact List.prefix_refl _
    · exact ⟨s :: rest, by simp⟩

theorem below_perm {items : List τ} (hitems : items.Nodup) {names : List String}
    (hnames : names.Nodup) (hcover : ∀ x ∈ items, ∀ s, dir ++ [s] <+: location x → s ∈ names) :
    (items.filter (dir <+: location ·)).Perm (items.filter (location · = dir) ++
      names.flatMap fun s => items.filter (dir ++ [s] <+: location ·)) := by
  have hright : (items.filter (location · = dir) ++
      names.flatMap fun s => items.filter (dir ++ [s] <+: location ·)).Nodup := by
    refine List.nodup_append.2 ⟨hitems.filter _, ?_, ?_⟩
    · refine List.nodup_flatMap.2 ⟨fun s _ => hitems.filter _, ?_⟩
      refine hnames.imp_of_mem ?_
      intro s t _ _ hst x hxs hxt
      exact hst (child_unique dir (by simpa using (List.mem_filter.1 hxs).2)
        (by simpa using (List.mem_filter.1 hxt).2))
    · intro x hx y hy hxy
      subst hxy
      obtain ⟨s, -, hy⟩ := List.mem_flatMap.1 hy
      have heq : location x = dir := by simpa using (List.mem_filter.1 hx).2
      have hlt : dir ++ [s] <+: location x := by simpa using (List.mem_filter.1 hy).2
      have := hlt.length_le
      simp [heq] at this
  refine (List.perm_ext_iff_of_nodup (hitems.filter _) hright).2 fun x => ?_
  simp only [List.mem_filter, decide_eq_true_eq, List.mem_append, List.mem_flatMap,
    below_iff dir (location x)]
  constructor
  · rintro ⟨hx, rfl | ⟨s, hs⟩⟩
    · exact Or.inl ⟨hx, rfl⟩
    · exact Or.inr ⟨s, hcover x hx s hs, hx, hs⟩
  · rintro (⟨hx, h⟩ | ⟨s, -, hx, hs⟩)
    · exact ⟨hx, Or.inl h⟩
    · exact ⟨hx, Or.inr ⟨s, hs⟩⟩

end Partition

theorem exists_map_eq {α β : Type} {f : α → β} {P : α → Prop} (l : List β)
    (h : ∀ y ∈ l, ∃ x, f x = y ∧ P x) : ∃ l' : List α, l'.map f = l ∧ ∀ x ∈ l', P x := by
  induction l with
  | nil => exact ⟨[], rfl, by simp⟩
  | cons y l ih =>
    obtain ⟨x, hx, hP⟩ := h y (by simp)
    obtain ⟨l', hl', hP'⟩ := ih fun z hz => h z (by simp [hz])
    refine ⟨x :: l', by rw [List.map_cons, hx, hl'], ?_⟩
    intro z hz
    rcases List.mem_cons.1 hz with rfl | hz
    · exact hP
    · exact hP' z hz

end PathTree
