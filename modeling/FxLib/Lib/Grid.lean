import Mathlib.Algebra.Group.Prod
import Mathlib.Data.List.Basic

/-!
# Shapes and rows on a grid

A shape is a list of cells. Whether it can be moved is asked of its border only, the cells that it
comes to and did not cover before. Rows that are complete are taken out one by one, and each time
an empty one comes in on top.
-/

namespace Grid

abbrev Cell := Int × Int

/-- The border of a shape for a move by `offset`: nothing but cells that the shape comes to, and
all of them that it does not cover already. -/
structure Borders (cells border : List Cell) (offset : Cell) : Prop where
  sound : ∀ b ∈ border, ∃ c ∈ cells, b = c + offset
  complete : ∀ c ∈ cells, c + offset ∈ border ∨ c + offset ∈ cells

instance (cells border : List Cell) (offset : Cell) : Decidable (Borders cells border offset) :=
  decidable_of_iff
    ((∀ b ∈ border, ∃ c ∈ cells, b = c + offset) ∧
      ∀ c ∈ cells, c + offset ∈ border ∨ c + offset ∈ cells)
    ⟨fun h => ⟨h.1, h.2⟩, fun h => ⟨h.1, h.2⟩⟩

/-- Where the shape has what is asked of a cell already, asking its border is asking for the whole
shape after the move. -/
theorem Borders.forall_iff {cells border : List Cell} {offset : Cell} {good : Cell → Prop}
    (h : Borders cells border offset) (hcells : ∀ c ∈ cells, good c) :
    (∀ b ∈ border, good b) ↔ ∀ c ∈ cells, good (c + offset) := by
  constructor
  · intro hborder c hc
    rcases h.complete c hc with hnew | hold
    · exact hborder _ hnew
    · exact hcells _ hold
  · intro hmoved b hb
    obtain ⟨c, hc, rfl⟩ := h.sound b hb
    exact hmoved c hc

variable {α : Type*} (full : α → Prop) [DecidablePred full] (empty : α)

/-- The complete rows are gone, and as many empty ones are on top. -/
def collapse (rows : List α) : List α :=
  List.replicate (rows.countP fun r => full r) empty ++ rows.filter fun r => ¬ full r

variable {full empty}

theorem collapse_of_none {rows : List α} (h : ∀ r ∈ rows, ¬ full r) :
    collapse full empty rows = rows := by
  have hcount : (rows.countP fun r => full r) = 0 :=
    List.countP_eq_zero.mpr fun r hr => by simpa using h r hr
  have hfilter : (rows.filter fun r => ¬ full r) = rows :=
    List.filter_eq_self.mpr fun r hr => by simpa using h r hr
  rw [collapse, hcount, hfilter]
  rfl

/-- One complete row that is taken out makes no difference. -/
theorem collapse_eraseIdx {rows : List α} {i : Nat} (hi : i < rows.length) (hfull : full rows[i])
    (hempty : ¬ full empty) :
    collapse full empty (empty :: rows.eraseIdx i) = collapse full empty rows := by
  have hsplit : rows = rows.take i ++ rows[i] :: rows.drop (i + 1) := by
    rw [← List.drop_eq_getElem_cons hi, List.take_append_drop]
  have hcount : (rows.countP fun r => full r) =
      (rows.eraseIdx i).countP (fun r => full r) + 1 := by
    rw [List.eraseIdx_eq_take_drop_succ, List.countP_append]
    conv_lhs => rw [hsplit]
    rw [List.countP_append, List.countP_cons_of_pos (by simpa using hfull)]
    omega
  have hfilter : (rows.filter fun r => ¬ full r) = (rows.eraseIdx i).filter fun r => ¬ full r := by
    rw [List.eraseIdx_eq_take_drop_succ, List.filter_append]
    conv_lhs => rw [hsplit]
    rw [List.filter_append, List.filter_cons_of_neg (by simpa using hfull)]
  rw [collapse, collapse, hcount, hfilter, List.countP_cons_of_neg (by simpa using hempty),
    List.filter_cons_of_pos (by simpa using hempty), List.replicate_succ', List.append_assoc]
  rfl

end Grid
