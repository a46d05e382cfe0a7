import Mathlib.Algebra.BigOperators.Group.List.Basic
import Mathlib.Algebra.Ring.Int.Defs
import Mathlib.Data.Int.Init
import Mathlib.Data.List.Forall2
import Mosaic.Proofs.Plane.Span

/-! Moving the lines of an exact cover. Along each row the edges of the rectangles cancel out but
for those of the box, so a cover stays exact when every line of an axis goes to one new place and no
rectangle is turned inside out. -/
namespace Mosaic

section

variable {α β : Type} {R : α → β → Prop} {as : List α} {bs : List β}

theorem forall₂_of_mem (h : List.Forall₂ R as bs) {b : β} (hb : b ∈ bs) : ∃ a ∈ as, R a b := by
  induction h with
  | nil => cases hb
  | @cons a _ as _ hab _ ih =>
    rcases List.mem_cons.1 hb with rfl | hb
    · exact ⟨a, List.mem_cons_self, hab⟩
    · obtain ⟨a', ha', hab'⟩ := ih hb
      exact ⟨a', List.mem_cons_of_mem _ ha', hab'⟩

theorem exists_getElem?_of_length (h : as.length = bs.length) {i : Nat} {a : α} (ha : as[i]? = some a) :
    ∃ b, bs[i]? = some b := by
  obtain ⟨hi, -⟩ := List.getElem?_eq_some_iff.1 ha
  exact ⟨bs[i], List.getElem?_eq_getElem (h ▸ hi)⟩

theorem forall₂_of_getElem? (h : List.Forall₂ R as bs) {i : Nat} {a : α} (ha : as[i]? = some a) :
    ∃ b, bs[i]? = some b ∧ R a b := by
  obtain ⟨hi, rfl⟩ := List.getElem?_eq_some_iff.1 ha
  have hi' : i < bs.length := h.length_eq ▸ hi
  exact ⟨bs[i], List.getElem?_eq_getElem hi', h.get hi hi'⟩

theorem forall₂_of_getElem?_right (h : List.Forall₂ R as bs) {i : Nat} {b : β} (hb : bs[i]? = some b) :
    ∃ a, as[i]? = some a ∧ R a b := by
  obtain ⟨hi, rfl⟩ := List.getElem?_eq_some_iff.1 hb
  have hi' : i < as.length := h.length_eq.symm ▸ hi
  exact ⟨as[i], List.getElem?_eq_getElem hi', h.get hi' hi⟩

theorem forall₂_map {f : α → β} (h : ∀ a ∈ as, R a (f a)) : List.Forall₂ R as (as.map f) :=
  List.forall₂_map_right_iff.2 (List.forall₂_same.2 h)

theorem forall₂_of_positions (h : as.length = bs.length)
    (hR : ∀ (i : Nat) (a : α) (b : β), as[i]? = some a → bs[i]? = some b → R a b) : List.Forall₂ R as bs :=
  List.forall₂_iff_get.2 ⟨h, fun i hi hi' =>
    hR i _ _ (List.getElem?_eq_getElem hi) (List.getElem?_eq_getElem hi')⟩

end

/-- The cell at coordinate `t` of an axis and at `c` of the other one. -/
def Axis.point (t c : Int) : Axis → Point
  | .x => ⟨t, c⟩
  | .y => ⟨c, t⟩

@[simp] theorem Axis.along_point (axis : Axis) (t c : Int) : (axis.point t c).along axis = t := by
  cases axis <;> rfl

@[simp] theorem Axis.along_cross_point (axis : Axis) (t c : Int) :
    (axis.point t c).along axis.cross = c := by cases axis <;> rfl

namespace Rect

variable {axis : Axis} {box : Rect} {rects : List Rect} {m : Int → Int}

/-- The row at `c` along the axis runs through the rectangle. -/
def OnRow (axis : Axis) (c : Int) (r : Rect) : Prop := r.near axis.cross ≤ c ∧ c < r.far axis.cross

instance (axis : Axis) (c : Int) (r : Rect) : Decidable (r.OnRow axis c) :=
  inferInstanceAs (Decidable (_ ∧ _))

theorem covers_iff (axis : Axis) (r : Rect) (p : Point) :
    r.Covers p ↔ r.OnRow axis (p.along axis.cross) ∧ r.near axis ≤ p.along axis ∧
      p.along axis < r.far axis := by
  cases axis
  · exact ⟨fun ⟨h₁, h₂, h₃, h₄⟩ => ⟨⟨h₃, h₄⟩, h₁, h₂⟩, fun ⟨⟨h₃, h₄⟩, h₁, h₂⟩ => ⟨h₁, h₂, h₃, h₄⟩⟩
  · exact ⟨fun ⟨h₁, h₂, h₃, h₄⟩ => ⟨⟨h₁, h₂⟩, h₃, h₄⟩, fun ⟨⟨h₁, h₂⟩, h₃, h₄⟩ => ⟨h₁, h₂, h₃, h₄⟩⟩

theorem encloses_iff (axis : Axis) (outer inner : Rect) :
    outer.Encloses inner ↔ (outer.near axis ≤ inner.near axis ∧ inner.far axis ≤ outer.far axis) ∧
      outer.near axis.cross ≤ inner.near axis.cross ∧ inner.far axis.cross ≤ outer.far axis.cross := by
  cases axis
  · exact ⟨fun ⟨h₁, h₂, h₃, h₄⟩ => ⟨⟨h₁, h₃⟩, h₂, h₄⟩, fun ⟨⟨h₁, h₃⟩, h₂, h₄⟩ => ⟨h₁, h₂, h₃, h₄⟩⟩
  · exact ⟨fun ⟨h₁, h₂, h₃, h₄⟩ => ⟨⟨h₂, h₄⟩, h₁, h₃⟩, fun ⟨⟨h₂, h₄⟩, h₁, h₃⟩ => ⟨h₁, h₂, h₃, h₄⟩⟩

/-- Two rectangles that meet on a line cover what they span. -/
theorem tile_beside (axis : Axis) {a b : Rect} (h : (a.Fits ∧ a.IsProper) ∧ b.Fits ∧ b.IsProper)
    (hacross : SameAcross axis box a ∧ SameAcross axis box b) (hnear : a.near axis = box.near axis)
    (hline : a.far axis = b.near axis) (hfar : b.far axis = box.far axis) : box.Tile [a, b] := by
  obtain ⟨ha, hb⟩ := h
  have hspanA := near_le_far ha.1 ha.2 axis
  have hspanB := near_le_far hb.1 hb.2 axis
  have hrow : ∀ c, (a.OnRow axis c ↔ box.OnRow axis c) ∧ (b.OnRow axis c ↔ box.OnRow axis c) := by
    intro c
    simp only [OnRow, hacross.1.1, hacross.1.far, hacross.2.1, hacross.2.far, true_and]
  constructor
  · intro r hr
    rw [encloses_iff axis]
    rcases List.mem_cons.1 hr with rfl | hr
    · exact ⟨ha.2, by omega, Int.le_of_eq hacross.1.1.symm, Int.le_of_eq hacross.1.far⟩
    · obtain rfl := List.mem_singleton.1 hr
      exact ⟨hb.2, by omega, Int.le_of_eq hacross.2.1.symm, Int.le_of_eq hacross.2.far⟩
  · intro p hp
    rw [covers_iff axis] at hp
    simp only [List.countP_cons, List.countP_nil, decide_eq_true_eq, covers_iff axis, hrow, hp.1,
      true_and]
    by_cases hside : p.along axis < b.near axis
    · rw [if_neg (by omega), if_pos (by omega)]
    · rw [if_pos (by omega), if_neg (by omega)]

theorem Tile.exists_covers (h : Tile box rects) {p : Point} (hp : box.Covers p) : ∃ r ∈ rects, r.Covers p := by
  obtain ⟨r, hr, hc⟩ := List.countP_pos_iff.1 (Nat.lt_of_lt_of_eq Nat.one_pos (h.2 p hp).symm)
  exact ⟨r, hr, of_decide_eq_true hc⟩

/-- On every edge of the box lies the edge of some rectangle. -/
theorem Tile.exists_edge (h : Tile box rects) (hbox : box.Solid) (axis : Axis) (side : Side) :
    ∃ r ∈ rects, r.edge axis side = box.edge axis side := by
  have hspan := hbox.near_lt_far axis
  have hacross := hbox.near_lt_far axis.cross
  have key : ∀ t, box.near axis ≤ t → t < box.far axis → ∃ r ∈ rects,
      (r.near axis ≤ t ∧ t < r.far axis) ∧ box.near axis ≤ r.near axis ∧ r.far axis ≤ box.far axis := by
    intro t hn hf
    obtain ⟨r, hr, hc⟩ := h.exists_covers (p := axis.point t (box.near axis.cross)) (by
      simp only [covers_iff axis, Axis.along_point, Axis.along_cross_point, OnRow]
      omega)
    rw [covers_iff axis, Axis.along_point] at hc
    exact ⟨r, hr, hc.2, ((encloses_iff axis box r).1 (h.1 r hr).2).1⟩
  cases side
  · obtain ⟨r, hr, ⟨hle, -⟩, hge, -⟩ := key (box.near axis) (Int.le_refl _) hspan
    exact ⟨r, hr, Int.le_antisymm hle hge⟩
  · obtain ⟨r, hr, ⟨-, hlt⟩, -, hle⟩ := key (box.far axis - 1) (by omega) (by omega)
    exact ⟨r, hr, show r.far axis = box.far axis by omega⟩

/-- The rectangle has an area. Its edges tell, also where the far one is cut off. -/
def HasArea (r : Rect) : Prop := ∀ axis, r.near axis < r.far axis

/-- Each cell of the box lies in exactly one rectangle, and the rectangles with an area lie inside. Where
the others lie is left open. -/
structure Paves (box : Rect) (rects : List Rect) : Prop where
  inside : ∀ r ∈ rects, r.HasArea → box.Encloses r
  once : ∀ p, box.Covers p → rects.countP (·.Covers p) = 1

theorem Tile.paves (h : Tile box rects) : Paves box rects := ⟨fun r hr _ => (h.1 r hr).2, h.2⟩

theorem Paves.tile (h : Paves box rects) (hin : ∀ r ∈ rects, r.IsProper ∧ box.Encloses r) : Tile box rects :=
  ⟨hin, h.once⟩

theorem hasArea_of_along {r : Rect} (axis : Axis) (h : r.near axis < r.far axis)
    (hacross : r.near axis.cross < r.far axis.cross) : r.HasArea := by
  intro other
  rcases other.eq_or_eq_cross axis with rfl | rfl
  · exact h
  · exact hacross

theorem Covers.hasArea {r : Rect} {p : Point} (h : r.Covers p) : r.HasArea := by
  obtain ⟨hleft, hright, htop, hbottom⟩ := h
  exact Axis.rec (Int.lt_of_le_of_lt hleft hright) (Int.lt_of_le_of_lt htop hbottom)

theorem Tile.append_empty (h : Tile box rects) {r : Rect} (hr : r.IsProper ∧ box.Encloses r)
    (hempty : ¬ r.HasArea) : Tile box (rects ++ [r]) := by
  refine ⟨fun s hs => ?_, fun p hp => ?_⟩
  · rcases List.mem_append.1 hs with hs | hs
    · exact h.1 s hs
    · exact List.mem_singleton.1 hs ▸ hr
  · have hno : ¬ r.Covers p := fun hc => hempty hc.hasArea
    rw [List.countP_append, h.2 p hp, List.countP_singleton, decide_eq_false hno]
    rfl

/-- What a function gains over the part of a rectangle's span that lies before `t`. -/
private def gain (axis : Axis) (f : Int → Int) (t : Int) (r : Rect) : Int :=
  f (min (r.far axis) t) - f (min (r.near axis) t)

private theorem gain_succ {r : Rect} (h : r.near axis ≤ r.far axis) (f : Int → Int) (t : Int) :
    gain axis f (t + 1) r =
      gain axis f t r + if r.near axis ≤ t ∧ t < r.far axis then f (t + 1) - f t else 0 := by
  unfold gain
  by_cases hfar : r.far axis ≤ t
  · have hnear : r.near axis ≤ t := by omega
    rw [if_neg (by omega), Int.min_eq_left (by omega), Int.min_eq_left (by omega),
      Int.min_eq_left hfar, Int.min_eq_left hnear]
    omega
  · rw [Int.min_eq_right (a := r.far axis) (b := t) (by omega),
      Int.min_eq_right (a := r.far axis) (b := t + 1) (by omega)]
    by_cases hnear : r.near axis ≤ t
    · rw [if_pos (by omega), Int.min_eq_left hnear, Int.min_eq_left (by omega)]
      omega
    · rw [if_neg (by omega), Int.min_eq_right (by omega), Int.min_eq_right (by omega)]
      omega

private theorem sum_gain_succ {rs : List Rect} (h : ∀ r ∈ rs, r.near axis ≤ r.far axis) (f : Int → Int)
    (t : Int) : (rs.map (gain axis f (t + 1))).sum = (rs.map (gain axis f t)).sum +
      (f (t + 1) - f t) * rs.countP fun r => r.near axis ≤ t ∧ t < r.far axis := by
  induction rs with
  | nil => simp
  | cons r rs ih =>
    have hr := gain_succ (h r List.mem_cons_self) f t
    have hrs := ih fun s hs => h s (List.mem_cons_of_mem _ hs)
    simp only [List.map_cons, List.sum_cons, List.countP_cons, hr, hrs, decide_eq_true_eq]
    by_cases hin : r.near axis ≤ t ∧ t < r.far axis
    · simp only [if_pos hin, Int.natCast_add, Int.natCast_one, Int.mul_add, Int.mul_one]
      omega
    · simp only [if_neg hin, Nat.add_zero]
      omega

/-- Along a row, what a function gains over the rectangles is what it gains over the box. -/
theorem Paves.row_balance (h : Paves box rects) (hbox : box.near axis ≤ box.far axis)
    (hrects : ∀ r ∈ rects, r.near axis ≤ r.far axis) {c : Int} (hc : box.OnRow axis c) (f : Int → Int) :
    ((rects.filter fun r => r.OnRow axis c).map fun r => f (r.far axis) - f (r.near axis)).sum =
      f (box.far axis) - f (box.near axis) := by
  -- On the row, what has no area has no span, and nothing is gained over it.
  have hrow : ∀ r ∈ rects.filter fun r => r.OnRow axis c, r.near axis ≤ r.far axis ∧
      (r.near axis < r.far axis → box.near axis ≤ r.near axis ∧ r.far axis ≤ box.far axis) := by
    intro r hr
    obtain ⟨hmem, hon⟩ := List.mem_filter.1 hr
    obtain ⟨hn, hf⟩ := of_decide_eq_true hon
    refine ⟨hrects r hmem, fun hspan => ?_⟩
    have harea := hasArea_of_along axis hspan (Int.lt_of_le_of_lt hn hf)
    exact ((encloses_iff axis box r).1 (h.inside r hmem harea)).1
  have hone : ∀ t, box.near axis ≤ t → t < box.far axis →
      (rects.filter fun r => r.OnRow axis c).countP
        (fun r => r.near axis ≤ t ∧ t < r.far axis) = 1 := by
    intro t hn hf
    have hcover := h.once (axis.point t c) ((covers_iff axis _ _).2 (by simpa using ⟨hc, hn, hf⟩))
    rw [List.countP_filter]
    refine Eq.trans (List.countP_congr fun r _ => ?_) hcover
    simp only [covers_iff axis, Axis.along_point, Axis.along_cross_point, Bool.and_eq_true,
      decide_eq_true_eq]
    exact and_comm
  have hsweep : ∀ t, box.near axis ≤ t → t ≤ box.far axis →
      ((rects.filter fun r => r.OnRow axis c).map (gain axis f t)).sum = f t - f (box.near axis) := by
    intro t hn
    induction t, hn using Int.leInduction with
    | base =>
      intro _
      rw [Int.sub_self]
      refine List.sum_eq_zero fun v hv => ?_
      obtain ⟨r, hr, rfl⟩ := List.mem_map.1 hv
      obtain ⟨hle, hin⟩ := hrow r hr
      have hsame : min (r.far axis) (box.near axis) = min (r.near axis) (box.near axis) := by omega
      rw [gain, hsame, Int.sub_self]
    | succ t hn ih =>
      intro hf
      rw [sum_gain_succ (fun r hr => (hrow r hr).1), ih (by omega), hone t hn (by omega)]
      simp only [Int.natCast_one, Int.mul_one]
      omega
  rw [← hsweep _ hbox (Int.le_refl _)]
  refine congrArg List.sum (List.map_congr_left fun r hr => ?_)
  obtain ⟨hle, hin⟩ := hrow r hr
  unfold gain
  rcases Int.lt_or_eq_of_le hle with hspan | hempty
  · obtain ⟨-, hfar⟩ := hin hspan
    rw [Int.min_eq_left hfar, Int.min_eq_left (by omega)]
  · rw [hempty, Int.sub_self, Int.sub_self]

/-- The lines of the axis are moved and the span across stays. -/
structure Carried (axis : Axis) (m : Int → Int) (r b : Rect) : Prop where
  near : b.near axis = m (r.near axis)
  far : b.far axis = m (r.far axis)
  across : SameAcross axis r b

theorem Carried.edges {r b : Rect} (h : Carried axis m r b) (side : Side) :
    b.edge axis side = m (r.edge axis side) := by
  cases side
  · exact h.near
  · exact h.far

/-- The edges of rectangles have gone along with the lines of the axis. -/
def MovedWith (axis : Axis) (m : Int → Int) (rs bs : List Rect) : Prop :=
  List.Forall₂ (fun r b => ∀ side, b.edge axis side = m (r.edge axis side)) rs bs

theorem MovedWith.refl (axis : Axis) (rs : List Rect) : MovedWith axis id rs rs :=
  List.forall₂_same.2 fun _ _ _ => rfl

theorem MovedWith.trans {m' : Int → Int} {rs bs cs : List Rect} (h : MovedWith axis m rs bs)
    (h' : MovedWith axis m' bs cs) : MovedWith axis (m' ∘ m) rs cs := by
  refine forall₂_of_positions (h.length_eq.trans h'.length_eq) fun i r c hr hc side => ?_
  obtain ⟨b, hb, hrb⟩ := forall₂_of_getElem? h hr
  obtain ⟨c', hc', hbc⟩ := forall₂_of_getElem? h' hb
  obtain rfl := Option.some.inj (hc.symm.trans hc')
  rw [hbc, hrb]
  rfl

theorem MovedWith.exists_mem_zip {rs bs : List Rect} (h : MovedWith axis m rs bs) {r : Rect} (hr : r ∈ rs) :
    ∃ b, (r, b) ∈ rs.zip bs ∧ ∀ side, b.edge axis side = m (r.edge axis side) := by
  obtain ⟨i, hi⟩ := List.getElem?_of_mem hr
  obtain ⟨b, hb, hrb⟩ := forall₂_of_getElem? h hi
  exact ⟨b, List.mem_of_getElem? (List.getElem?_zip_eq_some.2 ⟨hi, hb⟩), hrb⟩

theorem movedWith_of_carried {rs bs : List Rect} (h : List.Forall₂ (Carried axis m) rs bs) :
    MovedWith axis m rs bs := h.imp fun _ _ hrb => hrb.edges

theorem movedWith_cross {rs bs : List Rect} (h : List.Forall₂ (Carried axis m) rs bs) :
    MovedWith axis.cross id rs bs := h.imp fun _ _ hrb => hrb.across.edge

theorem Carried.onRow_iff {r b : Rect} (h : Carried axis m r b) {c : Int} :
    b.OnRow axis c ↔ r.OnRow axis c := by
  rw [OnRow, OnRow, h.across.1, h.across.far]

/-- Whether a cell at `t` lies before a line. -/
private def passed (t line : Int) : Int := if t < line then 1 else 0

private theorem countP_carried {rs bs : List Rect} (h : List.Forall₂ (Carried axis m) rs bs)
    (hbs : ∀ b ∈ bs, b.near axis ≤ b.far axis) (p : Point) :
    (bs.countP (·.Covers p) : Int) =
      ((rs.filter fun r => r.OnRow axis (p.along axis.cross)).map fun r =>
        passed (p.along axis) (m (r.far axis)) - passed (p.along axis) (m (r.near axis))).sum := by
  induction h with
  | nil => rfl
  | @cons r b rs bs hrb _ ih =>
    have hb := hbs b List.mem_cons_self
    rw [hrb.near, hrb.far] at hb
    rw [List.countP_cons, List.filter_cons, Int.natCast_add, ih fun s hs => hbs s (List.mem_cons_of_mem _ hs)]
    by_cases hrow : r.OnRow axis (p.along axis.cross)
    · have hcover : b.Covers p ↔ m (r.near axis) ≤ p.along axis ∧ p.along axis < m (r.far axis) := by
        rw [covers_iff axis, hrb.onRow_iff, hrb.near, hrb.far]
        exact and_iff_right hrow
      simp only [hcover, hrow, decide_true, if_true, List.map_cons, List.sum_cons, passed,
        decide_eq_true_eq]
      split <;> split <;> split <;> omega
    · have hcover : ¬ b.Covers p := fun hc => hrow (hrb.onRow_iff.1 ((covers_iff axis b p).1 hc).1)
      simp only [hcover, hrow, decide_false, Bool.false_eq_true, if_false]
      omega

/-- A cell of a row of the box is covered once between the moved edges of the box, and elsewhere not
at all. -/
private theorem Paves.count_carried (h : Paves box rects) (hbox : box.near axis ≤ box.far axis)
    (hrects : ∀ r ∈ rects, r.near axis ≤ r.far axis) {bs : List Rect}
    (hbs : List.Forall₂ (Carried axis m) rects bs) (hordered : ∀ b ∈ bs, b.near axis ≤ b.far axis)
    {p : Point} (hrow : box.OnRow axis (p.along axis.cross)) :
    (bs.countP (·.Covers p) : Int) =
      passed (p.along axis) (m (box.far axis)) - passed (p.along axis) (m (box.near axis)) := by
  rw [countP_carried hbs hordered p]
  exact h.row_balance hbox hrects hrow fun c => passed (p.along axis) (m c)

private theorem Paves.encloses_carried (h : Paves box rects) (hbox : box.near axis ≤ box.far axis)
    (hrects : ∀ r ∈ rects, r.near axis ≤ r.far axis) {bs : List Rect} {box' : Rect}
    (hbox' : Carried axis m box box') (hbs : List.Forall₂ (Carried axis m) rects bs)
    (hordered : ∀ b ∈ bs, b.near axis ≤ b.far axis) {b : Rect} (hb : b ∈ bs) (harea : b.HasArea) :
    box'.Encloses b := by
  obtain ⟨r, hr, hrb⟩ := forall₂_of_mem hbs hb
  have hacross := harea axis.cross
  have hspan : r.near axis < r.far axis := by
    refine Int.lt_iff_le_and_ne.2 ⟨hrects r hr, fun heq => ?_⟩
    have hlt := harea axis
    rw [hrb.near, hrb.far, heq] at hlt
    exact Int.lt_irrefl _ hlt
  have hold : box.Encloses r :=
    h.inside r hr (hasArea_of_along axis hspan (by rwa [← hrb.across.1, ← hrb.across.far]))
  have hencl := ((encloses_iff axis box r).1 hold).2
  have hrow : box.OnRow axis (b.near axis.cross) := by
    have hnear := hrb.across.1
    have hfar := hrb.across.far
    unfold OnRow
    omega
  have key : ∀ t, b.near axis ≤ t → t < b.far axis →
      m (box.near axis) ≤ t ∧ t < m (box.far axis) := by
    intro t hn hf
    have hcount := h.count_carried (p := axis.point t (b.near axis.cross)) hbox hrects hbs hordered
      (by simpa using hrow)
    have hpos : 0 < bs.countP (·.Covers (axis.point t (b.near axis.cross))) :=
      List.countP_pos_iff.2 ⟨b, hb, by simp [covers_iff axis, OnRow, hn, hf, hacross]⟩
    simp only [Axis.along_point, passed] at hcount
    split at hcount <;> split at hcount <;> omega
  have hlt := harea axis
  obtain ⟨hfirst, -⟩ := key (b.near axis) (Int.le_refl _) hlt
  obtain ⟨-, hlast⟩ := key (b.far axis - 1) (by omega) (by omega)
  refine (encloses_iff axis box' b).2 ⟨?_, ?_⟩
  · rw [hbox'.near, hbox'.far]
    exact ⟨hfirst, by omega⟩
  · rwa [hbox'.across.1, hbox'.across.far, hrb.across.1, hrb.across.far]

/-- Moving the lines of an axis, those of the box along with them, leaves every cell in one rectangle. -/
theorem Paves.carry (h : Paves box rects) (hbox : box.near axis ≤ box.far axis)
    (hrects : ∀ r ∈ rects, r.near axis ≤ r.far axis) {bs : List Rect} {box' : Rect}
    (hbox' : Carried axis m box box') (hbs : List.Forall₂ (Carried axis m) rects bs)
    (hordered : ∀ b ∈ bs, b.near axis ≤ b.far axis) : Paves box' bs := by
  refine ⟨fun b hb => h.encloses_carried hbox hrects hbox' hbs hordered hb, fun p hp => ?_⟩
  obtain ⟨hrow, hn, hf⟩ := (covers_iff axis box' p).1 hp
  have hcount := h.count_carried hbox hrects hbs hordered (hbox'.onRow_iff.1 hrow)
  rw [passed, passed, ← hbox'.far, ← hbox'.near, if_pos hf, if_neg (by omega)] at hcount
  omega

theorem Tile.carry (h : Tile box rects) (hbox : box.near axis ≤ box.far axis)
    (hrects : ∀ r ∈ rects, r.near axis ≤ r.far axis) {bs : List Rect} {box' : Rect}
    (hbox' : Carried axis m box box') (hbs : List.Forall₂ (Carried axis m) rects bs)
    (hproper : ∀ b ∈ bs, b.IsProper) (hordered : ∀ b ∈ bs, b.near axis ≤ b.far axis)
    (hin : ∀ b ∈ bs, box'.near axis ≤ b.near axis ∧ b.far axis ≤ box'.far axis) :
    Tile box' bs := by
  refine (h.paves.carry hbox hrects hbox' hbs hordered).tile fun b hb => ⟨hproper b hb, ?_⟩
  obtain ⟨r, hr, hrb⟩ := forall₂_of_mem hbs hb
  have hr := ((encloses_iff axis box r).1 (h.1 r hr).2).2
  refine (encloses_iff axis box' b).2 ⟨hin b hb, ?_⟩
  rwa [hbox'.across.1, hbox'.across.far, hrb.across.1, hrb.across.far]

/-- Moving lines inside the box, whose own lines stay, keeps the cover exact. -/
theorem Tile.carry_inside (h : Tile box rects) (hbox : box.Fits ∧ box.IsProper)
    (hrects : ∀ r ∈ rects, r.Fits) {bs : List Rect} (hbs : List.Forall₂ (Carried axis m) rects bs)
    (hbs' : ∀ b ∈ bs, b.Fits ∧ b.IsProper) (hnear : m (box.near axis) = box.near axis)
    (hfar : m (box.far axis) = box.far axis)
    (hwithin : ∀ c, box.near axis ≤ c → c ≤ box.far axis → box.near axis ≤ m c ∧ m c ≤ box.far axis) :
    Tile box bs := by
  have hordered : ∀ r ∈ rects, r.near axis ≤ r.far axis := fun r hr =>
    near_le_far (hrects r hr) (h.1 r hr).1 axis
  refine h.carry (near_le_far hbox.1 hbox.2 axis) hordered ⟨hnear.symm, hfar.symm, .refl _ _⟩ hbs
    (fun b hb => (hbs' b hb).2) (fun b hb => near_le_far (hbs' b hb).1 (hbs' b hb).2 axis) fun b hb => ?_
  obtain ⟨r, hr, hrb⟩ := forall₂_of_mem hbs hb
  obtain ⟨hin, -⟩ := (encloses_iff axis box r).1 (h.1 r hr).2
  have hle := hordered r hr
  rw [hrb.near, hrb.far]
  exact ⟨(hwithin _ hin.1 (by omega)).1, (hwithin _ (by omega) hin.2).2⟩

/-- The first axis has been moved, and the second one has not. -/
private def halfway (r b : Rect) : Rect := ⟨b.x, r.y, b.width, r.height⟩

private theorem carried_halfway {m : Axis → Int → Int} {r b : Rect}
    (h : ∀ axis side, b.edge axis side = m axis (r.edge axis side)) :
    Carried .x (m .x) r (halfway r b) ∧ Carried .y (m .y) (halfway r b) b :=
  ⟨⟨h .x .near, h .x .far, rfl, rfl⟩, ⟨h .y .near, h .y .far, rfl, rfl⟩⟩

private theorem exists_halfway {m : Axis → Int → Int} {rs bs : List Rect}
    (h : List.Forall₂ (fun r b => ∀ axis side, b.edge axis side = m axis (r.edge axis side)) rs bs) :
    ∃ mids, List.Forall₂ (Carried .x (m .x)) rs mids ∧ List.Forall₂ (Carried .y (m .y)) mids bs ∧
      ∀ mid ∈ mids, ∃ r ∈ rs, ∃ b ∈ bs, mid = halfway r b := by
  induction h with
  | nil => exact ⟨[], .nil, .nil, by simp⟩
  | @cons r b rs bs hrb _ ih =>
    obtain ⟨mids, hx, hy, hmem⟩ := ih
    obtain ⟨hrx, hry⟩ := carried_halfway hrb
    refine ⟨halfway r b :: mids, .cons hrx hx, .cons hry hy, fun mid hmid => ?_⟩
    rcases List.mem_cons.1 hmid with rfl | hmid
    · exact ⟨r, List.mem_cons_self, b, List.mem_cons_self, rfl⟩
    · obtain ⟨s, hs, c, hc, rfl⟩ := hmem mid hmid
      exact ⟨s, List.mem_cons_of_mem _ hs, c, List.mem_cons_of_mem _ hc, rfl⟩

theorem Tile.carry_both {m : Axis → Int → Int} {bs : List Rect} {box' : Rect} (h : Tile box rects)
    (hbox : box.Fits ∧ box.IsProper) (hrects : ∀ r ∈ rects, r.Fits)
    (hbox' : ∀ axis side, box'.edge axis side = m axis (box.edge axis side))
    (hbs : List.Forall₂ (fun r b => ∀ axis side, b.edge axis side = m axis (r.edge axis side)) rects bs)
    (hbs' : ∀ b ∈ bs, b.Fits ∧ b.IsProper)
    (hin : ∀ b ∈ bs, ∀ axis, box'.near axis ≤ b.near axis ∧ b.far axis ≤ box'.far axis) :
    Tile box' bs := by
  obtain ⟨mids, hx, hy, hmem⟩ := exists_halfway hbs
  obtain ⟨hboxX, hboxY⟩ := carried_halfway hbox'
  have hrs : ∀ r ∈ rects, ∀ axis, r.near axis ≤ r.far axis := fun r hr axis =>
    near_le_far (hrects r hr) (h.1 r hr).1 axis
  have hbs'' : ∀ b ∈ bs, ∀ axis, b.near axis ≤ b.far axis := fun b hb axis =>
    near_le_far (hbs' b hb).1 (hbs' b hb).2 axis
  have hfirst : Tile (halfway box box') mids := by
    refine h.carry (near_le_far hbox.1 hbox.2 .x) (fun r hr => hrs r hr .x) hboxX hx ?_ ?_ ?_
    all_goals
      intro mid hmid
      obtain ⟨r, hr, b, hb, rfl⟩ := hmem mid hmid
    · exact ⟨(hbs' b hb).2.1, (h.1 r hr).1.2⟩
    · exact hbs'' b hb .x
    · exact hin b hb .x
  have hheight : (halfway box box').near .y ≤ (halfway box box').far .y := near_le_far hbox.1 hbox.2 .y
  refine hfirst.carry hheight (fun mid hmid => ?_) hboxY hy
    (fun b hb => (hbs' b hb).2) (fun b hb => hbs'' b hb .y) (fun b hb => hin b hb .y)
  obtain ⟨r, hr, b, hb, rfl⟩ := hmem mid hmid
  exact hrs r hr .y

end Rect

end Mosaic
