import Mathlib.Algebra.Order.Field.Basic
import Mathlib.Data.Sign.Basic
import Mathlib.Tactic.FieldSimp
import Mathlib.Tactic.Linarith
import Mathlib.Tactic.LinearCombination
import Mathlib.Tactic.Ring

/-!
# Segments and boxes in the plane

Over any ordered field: on which side of a line a point is, the points of a segment, and when a
segment meets a box. Two segments that are not parallel meet when the ends of each are not on
the same side of the other (`separated_iff`). A segment with both ends outside of a box meets
the box when it meets a side that it is not parallel to, unless the whole box is on its line
(`Box.meets_iff`).
-/

namespace CartoLive.Lib.Segments

universe u

@[ext] structure Point (K : Type u) where
  x : K
  y : K
  deriving DecidableEq

variable {K : Type u} [Field K]

/-- The point at a part of the way from `a` to `b`. -/
def along (a b : Point K) (t : K) : Point K where
  x := a.x + t * (b.x - a.x)
  y := a.y + t * (b.y - a.y)

/-- Twice the signed area of a triangle. Its sign is the side of the line through `a` and `b`
that `c` is on. -/
def cross (a b c : Point K) : K := (b.x - a.x) * (c.y - a.y) - (b.y - a.y) * (c.x - a.x)

theorem along_zero (a b : Point K) : along a b 0 = a := by
  ext <;> simp [along]

theorem along_one (a b : Point K) : along a b 1 = b := by
  ext <;> simp [along]

theorem along_one_sub (a b : Point K) (t : K) : along b a (1 - t) = along a b t := by
  ext
  · simp only [along]
    ring
  · simp only [along]
    ring

theorem cross_along (a b c d : Point K) (s : K) :
    cross a b (along c d s) = cross a b c + s * (cross a b d - cross a b c) := by
  simp only [cross, along]
  ring

theorem cross_self_along (a b : Point K) (t : K) : cross a b (along a b t) = 0 := by
  simp only [cross, along]
  ring

/-- The two lines turn by the same angle from each other, in opposite senses. -/
theorem cross_sub_cross (a b c d : Point K) :
    cross c d b - cross c d a = -(cross a b d - cross a b c) := by
  simp only [cross]
  ring

variable [LinearOrder K]

/-- A point of a closed segment. -/
def On (a b p : Point K) : Prop := ∃ t, 0 ≤ t ∧ t ≤ 1 ∧ along a b t = p

/-- Two closed segments have a point in common. -/
def Meet (a b c d : Point K) : Prop := ∃ p, On a b p ∧ On c d p

variable [IsStrictOrderedRing K]

theorem On.symm {a b p : Point K} (h : On a b p) : On b a p := by
  obtain ⟨t, ht, ht', rfl⟩ := h
  exact ⟨1 - t, sub_nonneg.mpr ht', sub_le_self 1 ht, along_one_sub a b t⟩

theorem On.left (a b : Point K) : On a b a := ⟨0, le_rfl, zero_le_one, along_zero a b⟩

theorem On.right (a b : Point K) : On a b b := ⟨1, zero_le_one, le_rfl, along_one a b⟩

/-- A number between two others is at a part of the way. -/
theorem exists_part {lo hi v : K} (h : lo ≤ v) (h' : v ≤ hi) :
    ∃ t, 0 ≤ t ∧ t ≤ 1 ∧ lo + t * (hi - lo) = v := by
  rcases eq_or_lt_of_le (h.trans h') with heq | hlt
  · exact ⟨0, le_rfl, zero_le_one, by rw [zero_mul, add_zero]; exact le_antisymm h (heq ▸ h')⟩
  · have hpos : 0 < hi - lo := sub_pos.mpr hlt
    refine ⟨(v - lo) / (hi - lo), div_nonneg (sub_nonneg.mpr h) (le_of_lt hpos), ?_, ?_⟩
    · rw [div_le_one hpos]
      exact sub_le_sub_right h' lo
    · rw [div_mul_cancel₀ _ (ne_of_gt hpos), add_sub_cancel]

theorem on_vertical {x lo hi y : K} (h : lo ≤ y) (h' : y ≤ hi) :
    On (⟨x, lo⟩ : Point K) ⟨x, hi⟩ ⟨x, y⟩ := by
  obtain ⟨t, ht, ht', rfl⟩ := exists_part h h'
  exact ⟨t, ht, ht', by simp [along]⟩

theorem on_horizontal {y lo hi x : K} (h : lo ≤ x) (h' : x ≤ hi) :
    On (⟨lo, y⟩ : Point K) ⟨hi, y⟩ ⟨x, y⟩ := by
  obtain ⟨t, ht, ht', rfl⟩ := exists_part h h'
  exact ⟨t, ht, ht', by simp [along]⟩

/-- A part of the way between two numbers is between them. -/
theorem part_bounds {u v lo hi t : K} (ht : 0 ≤ t) (ht' : t ≤ 1) (hu : lo ≤ u) (hu' : u ≤ hi)
    (hv : lo ≤ v) (hv' : v ≤ hi) : lo ≤ u + t * (v - u) ∧ u + t * (v - u) ≤ hi := by
  have heq : u + t * (v - u) = (1 - t) * u + t * v := by ring
  have hrest : 0 ≤ 1 - t := sub_nonneg.mpr ht'
  constructor
  · calc lo = (1 - t) * lo + t * lo := by ring
      _ ≤ (1 - t) * u + t * v :=
        add_le_add (mul_le_mul_of_nonneg_left hu hrest) (mul_le_mul_of_nonneg_left hv ht)
      _ = u + t * (v - u) := heq.symm
  · calc u + t * (v - u) = (1 - t) * u + t * v := heq
      _ ≤ (1 - t) * hi + t * hi :=
        add_le_add (mul_le_mul_of_nonneg_left hu' hrest) (mul_le_mul_of_nonneg_left hv' ht)
      _ = hi := by ring

/-! ## Two segments -/

/-- Where a number changes its sign on the way from `u` to `v`, it vanishes. -/
theorem exists_zero {u v : K} (h : SignType.sign u ≠ SignType.sign v) :
    v - u ≠ 0 ∧ 0 ≤ -u / (v - u) ∧ -u / (v - u) ≤ 1 := by
  have hne : v - u ≠ 0 := fun heq => h (by rw [sub_eq_zero.mp heq])
  refine ⟨hne, ?_⟩
  rcases lt_trichotomy u v with hlt | heq | hgt
  · have hpos : 0 < v - u := sub_pos.mpr hlt
    rw [div_le_one hpos, div_nonneg_iff]
    have hu : u ≤ 0 := by
      by_contra hu
      have hu' := not_le.mp hu
      exact h (by rw [sign_pos hu', sign_pos (hu'.trans hlt)])
    have hv : 0 ≤ v := by
      by_contra hv
      have hv' := not_le.mp hv
      exact h (by rw [sign_neg (hlt.trans hv'), sign_neg hv'])
    exact ⟨Or.inl ⟨by linarith, le_of_lt hpos⟩, by linarith⟩
  · exact absurd (by rw [heq]) h
  · have hneg : v - u < 0 := sub_neg.mpr hgt
    rw [div_le_one_of_neg hneg, div_nonneg_iff]
    have hu : 0 ≤ u := by
      by_contra hu
      have hu' := not_le.mp hu
      exact h (by rw [sign_neg hu', sign_neg (hgt.trans hu')])
    have hv : v ≤ 0 := by
      by_contra hv
      have hv' := not_le.mp hv
      exact h (by rw [sign_pos (hv'.trans hgt), sign_pos hv'])
    exact ⟨Or.inr ⟨by linarith, le_of_lt hneg⟩, by linarith⟩

/-- A number that vanishes on the way, and is not the same all along, changes its sign. -/
theorem sign_ne_of_zero {u v s : K} (hs : 0 ≤ s) (hs' : s ≤ 1) (hne : v - u ≠ 0)
    (h : u + s * (v - u) = 0) : SignType.sign u ≠ SignType.sign v := by
  intro hsign
  have hu : u = -(s * (v - u)) := by linarith
  have hv : v = (1 - s) * (v - u) := by linarith
  rcases lt_or_gt_of_ne hne with hneg | hpos
  · have hv0 : v ≤ 0 := hv ▸ mul_nonpos_of_nonneg_of_nonpos (by linarith) (le_of_lt hneg)
    have hu0 : 0 ≤ u := by
      rw [hu]
      exact neg_nonneg.mpr (mul_nonpos_of_nonneg_of_nonpos hs (le_of_lt hneg))
    have hzero : u = 0 ∧ v = 0 := by
      rcases eq_or_lt_of_le hu0 with heq | hlt
      · refine ⟨heq.symm, ?_⟩
        rw [← heq, sign_zero] at hsign
        exact sign_eq_zero_iff.mp hsign.symm
      · rw [sign_pos hlt] at hsign
        exact absurd (sign_eq_one_iff.mp hsign.symm) (not_lt.mpr hv0)
    exact hne (by rw [hzero.1, hzero.2, sub_zero])
  · have hv0 : 0 ≤ v := hv ▸ mul_nonneg (by linarith) (le_of_lt hpos)
    have hu0 : u ≤ 0 := by
      rw [hu]
      exact neg_nonpos.mpr (mul_nonneg hs (le_of_lt hpos))
    have hzero : u = 0 ∧ v = 0 := by
      rcases eq_or_lt_of_le hu0 with heq | hlt
      · refine ⟨heq, ?_⟩
        rw [heq, sign_zero] at hsign
        exact sign_eq_zero_iff.mp hsign.symm
      · rw [sign_neg hlt] at hsign
        exact absurd (sign_eq_neg_one_iff.mp hsign.symm) (not_lt.mpr hv0)
    exact hne (by rw [hzero.1, hzero.2, sub_zero])

/-- The ends of each segment are not on the same side of the other, just when the segments meet
and are not parallel. -/
theorem separated_iff {a b c d : Point K} :
    (SignType.sign (cross a b c) ≠ SignType.sign (cross a b d) ∧
      SignType.sign (cross c d a) ≠ SignType.sign (cross c d b)) ↔
    cross a b d - cross a b c ≠ 0 ∧ Meet a b c d := by
  constructor
  · rintro ⟨hab, hcd⟩
    obtain ⟨hne, hs, hs'⟩ := exists_zero hab
    obtain ⟨hne', ht, ht'⟩ := exists_zero hcd
    refine ⟨hne, _, ⟨_, ht, ht', ?_⟩, ⟨_, hs, hs', rfl⟩⟩
    rw [cross_sub_cross] at hne' ⊢
    ext
    · simp only [along]
      field_simp
      simp only [cross]
      ring
    · simp only [along]
      field_simp
      simp only [cross]
      ring
  · rintro ⟨hne, p, ⟨t, ht, ht', htp⟩, ⟨s, hs, hs', hsp⟩⟩
    constructor
    · refine sign_ne_of_zero hs hs' hne ?_
      rw [← cross_along, hsp, ← htp, cross_self_along]
    · refine sign_ne_of_zero ht ht' ?_ ?_
      · rw [cross_sub_cross]
        exact neg_ne_zero.mpr hne
      · rw [← cross_along, htp, ← hsp, cross_self_along]

/-! ## A segment and a box -/

/-- A closed rectangle, which may have no area. -/
structure Box (K : Type u) [LE K] where
  west : K
  east : K
  south : K
  north : K
  west_le_east : west ≤ east
  south_le_north : south ≤ north

namespace Box

variable {box : Box K} {a b : Point K}

def Has (box : Box K) (p : Point K) : Prop :=
  (box.west ≤ p.x ∧ p.x ≤ box.east) ∧ box.south ≤ p.y ∧ p.y ≤ box.north

def corners (box : Box K) : List (Point K) :=
  [⟨box.west, box.south⟩, ⟨box.east, box.south⟩, ⟨box.east, box.north⟩, ⟨box.west, box.north⟩]

/-- Each corner and the next one. -/
def sides (box : Box K) : List (Point K × Point K) :=
  [(⟨box.west, box.south⟩, ⟨box.east, box.south⟩), (⟨box.east, box.south⟩, ⟨box.east, box.north⟩),
    (⟨box.east, box.north⟩, ⟨box.west, box.north⟩), (⟨box.west, box.north⟩, ⟨box.west, box.south⟩)]

/-- A closed segment has a point in the box. -/
def Meets (box : Box K) (a b : Point K) : Prop := ∃ p, On a b p ∧ box.Has p

theorem has_of_on {c d p : Point K} (hc : box.Has c) (hd : box.Has d) (hp : On c d p) :
    box.Has p := by
  obtain ⟨t, ht, ht', rfl⟩ := hp
  exact ⟨part_bounds ht ht' hc.1.1 hc.1.2 hd.1.1 hd.1.2,
    part_bounds ht ht' hc.2.1 hc.2.2 hd.2.1 hd.2.2⟩

omit [Field K] [IsStrictOrderedRing K] in
theorem has_of_mem_sides {side : Point K × Point K} (h : side ∈ box.sides) :
    box.Has side.1 ∧ box.Has side.2 := by
  have hx := box.west_le_east
  have hy := box.south_le_north
  simp only [sides, List.mem_cons, List.not_mem_nil, or_false] at h
  rcases h with rfl | rfl | rfl | rfl
  all_goals simp [Has, hx, hy]

/-- A number that is between two bounds at two times is between them in the meantime. -/
theorem stays {u w lo hi e s t : K} (hes : e ≤ s) (hst : s ≤ t)
    (he : lo ≤ u + e * w ∧ u + e * w ≤ hi) (ht : lo ≤ u + t * w ∧ u + t * w ≤ hi) :
    lo ≤ u + s * w ∧ u + s * w ≤ hi := by
  rcases le_total 0 w with hw | hw
  · have hlow := mul_le_mul_of_nonneg_right hes hw
    have hhigh := mul_le_mul_of_nonneg_right hst hw
    exact ⟨by linarith, by linarith⟩
  · have hhigh := mul_le_mul_of_nonpos_right hes hw
    have hlow := mul_le_mul_of_nonpos_right hst hw
    exact ⟨by linarith, by linarith⟩

/-- A number that gets between two bounds is there from the start, or passes one of them. -/
theorem exists_entry {u w lo hi t : K} (ht : 0 ≤ t) (h : lo ≤ u + t * w ∧ u + t * w ≤ hi) :
    ∃ e, 0 ≤ e ∧ e ≤ t ∧ (lo ≤ u + e * w ∧ u + e * w ≤ hi) ∧
      (e = 0 ∨ w ≠ 0 ∧ (u + e * w = lo ∨ u + e * w = hi)) := by
  by_cases hlo : u < lo
  · have hw : 0 < w := by
      by_contra hw
      have := mul_nonpos_of_nonneg_of_nonpos ht (not_lt.mp hw)
      linarith [h.1]
    have he : u + (lo - u) / w * w = lo := by
      rw [div_mul_cancel₀ _ (ne_of_gt hw), add_sub_cancel]
    refine ⟨(lo - u) / w, div_nonneg (by linarith) (le_of_lt hw), ?_, ?_, ?_⟩
    · rw [div_le_iff₀ hw]
      linarith [h.1]
    · rw [he]
      exact ⟨le_rfl, h.1.trans h.2⟩
    · exact Or.inr ⟨ne_of_gt hw, Or.inl he⟩
  by_cases hhi : hi < u
  · have hw : w < 0 := by
      by_contra hw
      have := mul_nonneg ht (not_lt.mp hw)
      linarith [h.2]
    have he : u + (hi - u) / w * w = hi := by
      rw [div_mul_cancel₀ _ (ne_of_lt hw), add_sub_cancel]
    refine ⟨(hi - u) / w, div_nonneg_of_nonpos (by linarith) (le_of_lt hw), ?_, ?_, ?_⟩
    · rw [div_le_iff_of_neg hw]
      linarith [h.2]
    · rw [he]
      exact ⟨h.1.trans h.2, le_rfl⟩
    · exact Or.inr ⟨ne_of_lt hw, Or.inr he⟩
  · refine ⟨0, le_rfl, ht, ?_, Or.inl rfl⟩
    rw [zero_mul, add_zero]
    exact ⟨not_lt.mp hlo, not_lt.mp hhi⟩

/-- A segment that starts outside of the box and meets it passes a side's line into it. -/
theorem exists_boundary (ha : ¬ box.Has a) (h : box.Meets a b) :
    ∃ q, On a b q ∧ box.Has q ∧
      (b.x - a.x ≠ 0 ∧ (q.x = box.west ∨ q.x = box.east) ∨
        b.y - a.y ≠ 0 ∧ (q.y = box.south ∨ q.y = box.north)) := by
  obtain ⟨p, ⟨t, ht, ht', rfl⟩, hx, hy⟩ := h
  obtain ⟨ex, hex, hext, hexin, hexb⟩ := exists_entry ht hx
  obtain ⟨ey, hey, heyt, heyin, heyb⟩ := exists_entry ht hy
  have hin : box.Has (along a b (max ex ey)) :=
    ⟨stays (le_max_left ex ey) (max_le hext heyt) hexin hx,
      stays (le_max_right ex ey) (max_le hext heyt) heyin hy⟩
  have hne : max ex ey ≠ 0 := fun h0 => ha (by rwa [h0, along_zero] at hin)
  refine ⟨along a b (max ex ey), ⟨_, hex.trans (le_max_left ex ey),
    (max_le hext heyt).trans ht', rfl⟩, hin, ?_⟩
  rcases le_total ey ex with hle | hle
  · rw [max_eq_left hle] at hne ⊢
    exact Or.inl (hexb.resolve_left hne)
  · rw [max_eq_right hle] at hne ⊢
    exact Or.inr (heyb.resolve_left hne)

omit [IsStrictOrderedRing K] in
/-- A side through a point of the line is not parallel to it, when an end of it is not on the
line. -/
theorem turn_ne_zero {c d q corner : Point K} (hq : On c d q) (hzero : cross a b q = 0)
    (hcorner : corner = c ∨ corner = d) (hne : cross a b corner ≠ 0) :
    cross a b d - cross a b c ≠ 0 := by
  intro hturn
  obtain ⟨s, -, -, rfl⟩ := hq
  rw [cross_along, hturn, mul_zero, add_zero] at hzero
  rcases hcorner with rfl | rfl
  · exact hne hzero
  · exact hne (by rw [← sub_add_cancel (cross a b corner) (cross a b c), hturn, hzero, add_zero])

theorem exists_side (hne : ∃ corner ∈ box.corners, cross a b corner ≠ 0) {q : Point K}
    (hq : On a b q) (hin : box.Has q)
    (hside : b.x - a.x ≠ 0 ∧ (q.x = box.west ∨ q.x = box.east) ∨
      b.y - a.y ≠ 0 ∧ (q.y = box.south ∨ q.y = box.north)) :
    ∃ side ∈ box.sides, cross a b side.2 - cross a b side.1 ≠ 0 ∧ Meet a b side.1 side.2 := by
  obtain ⟨corner, hcorner, hne⟩ := hne
  have hzero : cross a b q = 0 := by
    obtain ⟨t, -, -, rfl⟩ := hq
    exact cross_self_along a b t
  obtain ⟨x, y⟩ := q
  obtain ⟨⟨hw, he⟩, hs, hn⟩ := hin
  simp only [corners, List.mem_cons, List.not_mem_nil, or_false] at hcorner
  rcases hside with ⟨hx, hside⟩ | ⟨hy, hside⟩
  · rcases eq_or_lt_of_le box.south_le_north with hflat | hlt
    · -- the box is a part of one parallel
      have hy : y = box.south := le_antisymm (hflat ▸ hn) hs
      rw [← hflat] at hcorner
      have hon : On (⟨box.west, box.south⟩ : Point K) ⟨box.east, box.south⟩ ⟨x, y⟩ :=
        hy ▸ on_horizontal hw he
      refine ⟨_, List.mem_cons_self, turn_ne_zero hon hzero ?_ hne, ⟨x, y⟩, hq, hon⟩
      tauto
    · rcases hside with rfl | rfl
      · refine ⟨(⟨box.west, box.north⟩, ⟨box.west, box.south⟩), by simp [sides], ?_,
          ⟨box.west, y⟩, hq, (on_vertical hs hn).symm⟩
        have hturn : cross a b ⟨box.west, box.south⟩ - cross a b ⟨box.west, box.north⟩ =
            (b.x - a.x) * (box.south - box.north) := by
          simp only [cross]
          ring
        rw [hturn]
        exact mul_ne_zero hx (ne_of_lt (sub_neg.mpr hlt))
      · refine ⟨(⟨box.east, box.south⟩, ⟨box.east, box.north⟩), by simp [sides], ?_,
          ⟨box.east, y⟩, hq, on_vertical hs hn⟩
        have hturn : cross a b ⟨box.east, box.north⟩ - cross a b ⟨box.east, box.south⟩ =
            (b.x - a.x) * (box.north - box.south) := by
          simp only [cross]
          ring
        rw [hturn]
        exact mul_ne_zero hx (ne_of_gt (sub_pos.mpr hlt))
  · rcases eq_or_lt_of_le box.west_le_east with hflat | hlt
    · -- the box is a part of one meridian
      have hx : x = box.east := le_antisymm he (hflat ▸ hw)
      rw [hflat] at hcorner
      have hon : On (⟨box.east, box.south⟩ : Point K) ⟨box.east, box.north⟩ ⟨x, y⟩ :=
        hx ▸ on_vertical hs hn
      refine ⟨(⟨box.east, box.south⟩, ⟨box.east, box.north⟩), by simp [sides],
        turn_ne_zero hon hzero ?_ hne, ⟨x, y⟩, hq, hon⟩
      tauto
    · rcases hside with rfl | rfl
      · refine ⟨(⟨box.west, box.south⟩, ⟨box.east, box.south⟩), by simp [sides], ?_,
          ⟨x, box.south⟩, hq, on_horizontal hw he⟩
        have hturn : cross a b ⟨box.east, box.south⟩ - cross a b ⟨box.west, box.south⟩ =
            (b.y - a.y) * (box.west - box.east) := by
          simp only [cross]
          ring
        rw [hturn]
        exact mul_ne_zero hy (ne_of_lt (sub_neg.mpr hlt))
      · refine ⟨(⟨box.east, box.north⟩, ⟨box.west, box.north⟩), by simp [sides], ?_,
          ⟨x, box.north⟩, hq, (on_horizontal hw he).symm⟩
        have hturn : cross a b ⟨box.west, box.north⟩ - cross a b ⟨box.east, box.north⟩ =
            (b.y - a.y) * (box.east - box.west) := by
          simp only [cross]
          ring
        rw [hturn]
        exact mul_ne_zero hy (ne_of_gt (sub_pos.mpr hlt))

/-- A segment that starts outside of the box meets it just when it meets a side that it is not
parallel to, unless the whole box is on its line. -/
theorem meets_iff (ha : ¬ box.Has a) (hne : ∃ corner ∈ box.corners, cross a b corner ≠ 0) :
    box.Meets a b ↔
      ∃ side ∈ box.sides, cross a b side.2 - cross a b side.1 ≠ 0 ∧ Meet a b side.1 side.2 := by
  constructor
  · intro h
    obtain ⟨q, hq, hin, hside⟩ := exists_boundary ha h
    exact exists_side hne hq hin hside
  · rintro ⟨side, hside, -, p, hp, hp'⟩
    exact ⟨p, hp, has_of_on (has_of_mem_sides hside).1 (has_of_mem_sides hside).2 hp'⟩

/-- The box meets a segment from inside of it. -/
theorem meets_of_has (h : box.Has a ∨ box.Has b) : box.Meets a b := by
  rcases h with h | h
  · exact ⟨a, On.left a b, h⟩
  · exact ⟨b, On.right a b, h⟩

/-- A segment that is on one side of the box does not meet it. -/
theorem not_meets_of_apart
    (h : max a.x b.x < box.west ∨ box.east < min a.x b.x ∨
      max a.y b.y < box.south ∨ box.north < min a.y b.y) : ¬ box.Meets a b := by
  rintro ⟨p, ⟨t, ht, ht', rfl⟩, ⟨hw, he⟩, hs, hn⟩
  have hx := part_bounds ht ht' (min_le_left a.x b.x) (le_max_left a.x b.x)
    (min_le_right a.x b.x) (le_max_right a.x b.x)
  have hy := part_bounds ht ht' (min_le_left a.y b.y) (le_max_left a.y b.y)
    (min_le_right a.y b.y) (le_max_right a.y b.y)
  rcases h with h | h | h | h
  · exact absurd (hw.trans hx.2) (not_le.mpr h)
  · exact absurd (hx.1.trans he) (not_le.mpr h)
  · exact absurd (hs.trans hy.2) (not_le.mpr h)
  · exact absurd (hy.1.trans hn) (not_le.mpr h)

end Box

end CartoLive.Lib.Segments
