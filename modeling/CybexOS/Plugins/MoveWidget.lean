/-
The command move-widget: an enabled widget is dropped at an index of a
section, and the widgets of that section are numbered anew.
-/
import CybexOS.Plugins.Drawn
import CybexOS.SortedInsert

namespace CybexOS

namespace Plugins

open Json

/-- The two are one listed widget: no other one has its plugin and instance. -/
def Widget.isSame (moving widget : Widget) : Bool :=
  widget.id = moving.id && widget.instanceName = moving.instanceName

/-- The destination with the widget taken out, if it was there, and inserted. -/
def arranged (destination : List Widget) (moving : Widget) (index : ℕ) : List Widget :=
  match destination.findIdx? moving.isSame with
  | some old =>
      (destination.eraseIdx old).insertIdx (if old < index then index - 1 else index) moving
  | none => destination.insertIdx index moving

/-- `entry.update(section=section, order=order)` -/
def siteTarget (place : Section) (order : ℕ) (target : PyDict) : PyDict :=
  Dict.set (Dict.set target (ascii "section") (.str place.name)) (ascii "order")
    (.num (.int order))

/-- Number one widget; a plugin without an entry raises a `KeyError`. -/
def siteWidget (place : Section) (plugins : PyDict) (item : Widget × ℕ) : Option PyDict :=
  if item.1.id ∈ Dict.keys plugins then
    changeTarget plugins item.1.id item.1.instanceName (siteTarget place item.2)
  else none

def commandMoveWidget (w : World) (key : Text) (place : Section) (index : ℤ) : Result World := do
  let snapshot ← scan w.registry w.packages
  let widgets := snapshot.widgets.filter (·.enabled)
  let moving ← expect (widgetAt widgets key) "Widget is no longer enabled"
  let destination := widgets.filter (·.isAt place)
  check (0 ≤ index && index ≤ destination.length) "Invalid widget drop index"
  let plugins ← insist ((arranged destination moving index.toNat).zipIdx.foldlM
    (siteWidget place) w.registry.plugins)
  pure { w with registry := { w.registry with plugins := plugins } }

/-! ### What a move is for -/

/-- The enabled widgets of a section, as they are listed. -/
def Scan.drawn (info : Scan) (place : Section) : List Widget :=
  info.widgets.filter fun widget => widget.enabled && widget.isAt place

/-- A widget but for where it is put. -/
def Widget.unplaced (widget : Widget) : Widget := { widget with order := 0, place := none }

/-- The widgets without one, and it before those that were at the index or
behind it. -/
def dropped (widgets : List Widget) (moving : Widget) (index : ℕ) : List Widget :=
  (widgets.take index).filter (!moving.isSame ·) ++
    moving :: (widgets.drop index).filter (!moving.isSame ·)

/-- The section of the widget can be written: it names one, or the widget of a
package that was not read stays where such widgets are listed. -/
def Widget.movable (moving : Widget) (place : Section) : Bool :=
  moving.place.elim (place = .right) fun value => (section? value).isSome

/-- One widget is at its index, and everything else as it was. -/
structure Moved (moving : Widget) (place : Section) (index : ℕ) (before after : Scan) :
    Prop where
  destination : (after.drawn place).map Widget.unplaced =
    (dropped (before.drawn place) moving index).map Widget.unplaced
  others : ∀ other, other ≠ place →
    after.drawn other = (before.drawn other).filter (!moving.isSame ·)
  widgets : (after.widgets.map Widget.unplaced).Perm (before.widgets.map Widget.unplaced)

/-! ### The arrangement -/

theorem Widget.isSame_iff {moving widget : Widget} :
    moving.isSame widget = true ↔
      widget.id = moving.id ∧ widget.instanceName = moving.instanceName := by
  simp [isSame]

theorem Widget.isSame_self (widget : Widget) : widget.isSame widget = true := by
  simp [isSame]

/-- No two listed widgets are the same. -/
def Distinct (widgets : List Widget) : Prop :=
  widgets.Pairwise fun a b => a.isSame b = false

theorem filter_not_isSame {widgets : List Widget} {moving : Widget}
    (h : ∀ widget ∈ widgets, moving.isSame widget = false) :
    widgets.filter (!moving.isSame ·) = widgets :=
  List.filter_eq_self.mpr fun widget hwidget => by rw [h widget hwidget]; rfl

theorem insertIdx_eq {α : Type} {items : List α} {index : ℕ} {item : α}
    (h : index ≤ items.length) :
    items.insertIdx index item = items.take index ++ item :: items.drop index := by
  induction items generalizing index with
  | nil => simp [Nat.le_zero.mp h]
  | cons head tail ih =>
      cases index with
      | zero => rfl
      | succ index => simp [ih (Nat.le_of_succ_le_succ h)]

/-- A list around the widget that is taken out of it. -/
theorem Distinct.exists_split {destination : List Widget} {moving : Widget} {old : ℕ}
    (h : Distinct destination) (hold : destination.findIdx? moving.isSame = some old) :
    ∃ front found back, destination = front ++ found :: back ∧ front.length = old ∧
      moving.isSame found = true ∧ ∀ widget ∈ front ++ back, moving.isSame widget = false := by
  obtain ⟨hlt, hfound, hbefore⟩ := List.findIdx?_eq_some_iff_getElem.mp hold
  have hsplit : destination =
      destination.take old ++ destination[old] :: destination.drop (old + 1) := by simp
  refine ⟨destination.take old, destination[old], destination.drop (old + 1), hsplit,
    List.length_take_of_le hlt.le, hfound, fun widget hwidget => ?_⟩
  rcases List.mem_append.mp hwidget with hfront | hback
  · obtain ⟨i, hi, rfl⟩ := List.mem_iff_getElem.mp hfront
    rw [List.length_take] at hi
    rw [List.getElem_take]
    exact Bool.eq_false_of_not_eq_true (hbefore i (by omega))
  · unfold Distinct at h
    rw [hsplit, List.pairwise_append, List.pairwise_cons] at h
    have hne := h.2.1.1 widget hback
    rw [Widget.isSame_iff] at hfound
    simpa only [Widget.isSame, hfound.1, hfound.2] using hne

/-- The place in which the command inserts is the one asked for. -/
theorem arranged_eq_dropped {destination : List Widget} {moving : Widget} {index : ℕ}
    (hdistinct : Distinct destination) (hindex : index ≤ destination.length) :
    arranged destination moving index = dropped destination moving index := by
  unfold arranged dropped
  cases hold : destination.findIdx? moving.isSame with
  | none =>
      rw [List.findIdx?_eq_none_iff] at hold
      rw [filter_not_isSame fun widget hwidget => hold widget (List.mem_of_mem_take hwidget),
        filter_not_isSame fun widget hwidget => hold widget (List.mem_of_mem_drop hwidget)]
      exact insertIdx_eq hindex
  | some old =>
      obtain ⟨front, found, back, rfl, rfl, hfound, hothers⟩ := hdistinct.exists_split hold
      have hfront : front.filter (!moving.isSame ·) = front :=
        filter_not_isSame fun widget hwidget => hothers widget (List.mem_append_left _ hwidget)
      have hback : ∀ kept : List Widget, kept ⊆ back → kept.filter (!moving.isSame ·) = kept :=
        fun kept hkept => filter_not_isSame fun widget hwidget =>
          hothers widget (List.mem_append_right _ (hkept hwidget))
      have herased : (front ++ found :: back).eraseIdx front.length = front ++ back := by
        rw [List.eraseIdx_append_of_length_le le_rfl, Nat.sub_self, List.eraseIdx_cons_zero]
      dsimp only
      rw [herased]
      split_ifs with hbefore
      · -- the widget leaves a place before the index
        obtain ⟨rest, rfl⟩ : ∃ rest, index = front.length + 1 + rest :=
          ⟨index - (front.length + 1), by omega⟩
        have hlength : front.length + 1 + rest - 1 = front.length + rest := by omega
        rw [hlength, insertIdx_eq (by simp at hindex ⊢; omega), List.take_length_add_append,
          List.drop_length_add_append, Nat.add_assoc, List.take_length_add_append,
          List.drop_length_add_append, Nat.add_comm 1 rest, List.take_succ_cons,
          List.drop_succ_cons, List.filter_append, List.filter_cons_of_neg (by simp [hfound]),
          hfront, hback _ (List.take_subset _ _), hback _ (List.drop_subset _ _)]
      · have hle : index ≤ front.length := by omega
        have htaken : (front.take index).filter (!moving.isSame ·) = front.take index :=
          filter_not_isSame fun widget hwidget =>
            hothers widget (List.mem_append_left _ (List.mem_of_mem_take hwidget))
        have hleft : (front.drop index).filter (!moving.isSame ·) = front.drop index :=
          filter_not_isSame fun widget hwidget =>
            hothers widget (List.mem_append_left _ (List.mem_of_mem_drop hwidget))
        rw [insertIdx_eq (by simp; omega), List.take_append_of_le_length hle,
          List.drop_append_of_le_length hle, List.take_append_of_le_length hle,
          List.drop_append_of_le_length hle, List.filter_append,
          List.filter_cons_of_neg (by simp [hfound]), htaken, hleft, hback _ (fun _ h => h)]

end Plugins

end CybexOS
