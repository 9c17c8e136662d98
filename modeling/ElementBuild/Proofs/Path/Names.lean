/-
# Paths along names

A path along names is relative and ends in a name, so another one is put behind it with a
slash between (`IsOpen.join_join`): the names are followed one after the other
(`join_ofNames_append`).
-/
import ElementBuild.Proofs.Path.Segments
import Mathlib.Data.List.Basic

namespace ElementBuild
namespace Path

/-- The path along names, one in the other. -/
def ofNames (xs : List String) : Path := ⟨"/".intercalate xs⟩

theorem toList_ofNames (xs : List String) :
    (ofNames xs).text.toList = joinPieces (xs.map String.toList) := toList_intercalate_slash xs

theorem ofNames_singleton (x : String) : ofNames [x] = ⟨x⟩ :=
  congrArg Path.mk String.intercalate_singleton

/-- A path that a name can be put behind with a slash between. -/
structure IsOpen (p : Path) : Prop where
  relative : p.isAbsolute = false
  nonempty : p.text ≠ ""
  noSlash : p.text.toList.getLast? ≠ some '/'

theorem IsName.isOpen {n : String} (h : IsName n) : (Path.mk n).IsOpen where
  relative := h.isAbsolute
  nonempty hempty := h.text_ne_empty (String.toList_inj.2 hempty)
  noSlash hlast := h.2 (List.mem_of_getLast? hlast)

/-- What joining puts behind a path. -/
def separator (p : Path) : String :=
  if p.text.isEmpty || p.text.toList.getLast? == some '/' then "" else "/"

theorem join_eq {p q : Path} (hq : q.isAbsolute = false) :
    p.join q = ⟨p.text ++ p.separator ++ q.text⟩ := by
  unfold join separator
  rw [if_neg (Bool.not_eq_true _ ▸ hq)]
  split
  · rw [String.append_empty]
  · rfl

theorem isAbsolute_append {p : Path} (hp : p.text ≠ "") (rest : String) :
    (Path.mk (p.text ++ rest)).isAbsolute = p.isAbsolute := by
  obtain ⟨c, cs, hcs⟩ := List.exists_cons_of_ne_nil
    (fun hnil => hp (String.toList_inj.1 hnil) : p.text.toList ≠ [])
  rw [isAbsolute, isAbsolute, String.toList_append, hcs]
  rfl

theorem isAbsolute_join_of_relative {p q : Path} (hp : p.text ≠ "") (hq : q.isAbsolute = false) :
    (p.join q).isAbsolute = p.isAbsolute := by
  rw [join_eq hq, String.append_assoc]
  exact isAbsolute_append hp _

namespace IsOpen

variable {a : Path} (ha : a.IsOpen)
include ha

theorem toList_ne_nil : a.text.toList ≠ [] := fun hnil => ha.nonempty (String.toList_inj.1 hnil)

theorem join (p : Path) : (p.join a).text ≠ "" ∧ (p.join a).text.toList.getLast? ≠ some '/' := by
  have htext : (p.join a).text.toList = (p.text ++ p.separator).toList ++ a.text.toList := by
    rw [join_eq ha.relative, String.toList_append]
  refine ⟨fun hempty => ?_, ?_⟩
  · rw [hempty] at htext
    exact ha.toList_ne_nil (List.append_eq_nil_iff.1 htext.symm).2
  · rw [htext, List.getLast?_append_of_ne_nil _ ha.toList_ne_nil]
    exact ha.noSlash

/-- Joining two paths one after the other joins them with a slash between. -/
theorem join_join (p : Path) {b : Path} (hb : b.isAbsolute = false) :
    (p.join a).join b = p.join ⟨a.text ++ "/" ++ b.text⟩ := by
  obtain ⟨hne, hlast⟩ := ha.join p
  have hseparator : (p.join a).separator = "/" := by
    rw [separator, if_neg]
    rw [Bool.or_eq_true, not_or]
    exact ⟨fun hempty => hne (String.isEmpty_iff.1 hempty), fun hslash => hlast (beq_iff_eq.1 hslash)⟩
  have hwhole : (Path.mk (a.text ++ "/" ++ b.text)).isAbsolute = false := by
    rw [String.append_assoc, isAbsolute_append ha.nonempty]
    exact ha.relative
  rw [join_eq hb, hseparator, join_eq hwhole, join_eq ha.relative]
  simp only [String.append_assoc]

end IsOpen

theorem text_ofNames_append {xs ys : List String} (hxs : xs ≠ []) (hys : ys ≠ []) :
    (ofNames (xs ++ ys)).text = (ofNames xs).text ++ "/" ++ (ofNames ys).text :=
  String.intercalate_append_of_ne_nil hxs hys

theorem isOpen_ofNames {xs : List String} (hxs : ∀ x ∈ xs, IsName x) (hne : xs ≠ []) :
    (ofNames xs).IsOpen := by
  induction xs with
  | nil => exact absurd rfl hne
  | cons x xs ih =>
    have hx := (hxs x List.mem_cons_self).isOpen
    by_cases hnil : xs = []
    · rw [hnil, ofNames_singleton]
      exact hx
    · have htail := ih (fun y hy => hxs y (List.mem_cons_of_mem x hy)) hnil
      have htext : (ofNames (x :: xs)).text = x ++ "/" ++ (ofNames xs).text := by
        have happend := text_ofNames_append (List.cons_ne_nil x []) hnil
        rwa [ofNames_singleton] at happend
      refine ⟨?_, ?_, ?_⟩
      · rw [show ofNames (x :: xs) = ⟨x ++ ("/" ++ (ofNames xs).text)⟩ from
          congrArg Path.mk (htext.trans (String.append_assoc ..)), isAbsolute_append hx.nonempty]
        exact hx.relative
      · rw [htext, ← String.toList_inj.ne, String.toList_append]
        exact fun hempty => htail.toList_ne_nil (List.append_eq_nil_iff.1 hempty).2
      · rw [htext, String.toList_append, List.getLast?_append_of_ne_nil _ htail.toList_ne_nil]
        exact htail.noSlash

theorem isAbsolute_ofNames {xs : List String} (hxs : ∀ x ∈ xs, IsName x) :
    (ofNames xs).isAbsolute = false := by
  by_cases hne : xs = []
  · rw [hne]
    rfl
  · exact (isOpen_ofNames hxs hne).relative

/-- Names are followed one after the other. -/
theorem join_ofNames_append (p : Path) {xs ys : List String} (hxs : ∀ x ∈ xs, IsName x)
    (hys : ∀ y ∈ ys, IsName y) (hne : xs ≠ []) (hne' : ys ≠ []) :
    p.join (ofNames (xs ++ ys)) = (p.join (ofNames xs)).join (ofNames ys) := by
  rw [(isOpen_ofNames hxs hne).join_join p (isAbsolute_ofNames hys), ← text_ofNames_append hne hne']

end Path
end ElementBuild
