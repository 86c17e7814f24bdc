import Mathlib.Analysis.Complex.Norm
import RtkLocalization.Lib.Angle

/-!
# Geodetic coordinates on an ellipsoid of revolution

Coordinates in a meridian half plane: `p` is the distance from the polar axis,
`z` the height over the equator. `meridianP`, `meridianZ` go from geodetic
latitude and altitude to `(p, z)`; `bowringLatitude`, `bowringAltitude` go back
with one step of Bowring's formula, which is exact on the ellipsoid and
approximate off it.

`bowring_step` and `bowring_bound` say how far: the distance from the axis is
always reproduced, and the error in `z` is at most
`ep2 b e2 |h| / ((1 - e2) b - |h|)` for a point at altitude `h`. The proof writes the error as
`ep2 b sin θ (1 + cos² θ (λ - 1) - λ / √(cos² θ + λ² sin² θ))`, where `θ` is the
auxiliary latitude and `λ` the factor by which the step changes its tangent.
-/

noncomputable section

open Real Planar

/-- An ellipsoid of revolution: equatorial radius and first eccentricity
squared. -/
structure Ellipsoid where
  a : ℝ
  e2 : ℝ
  a_pos : 0 < a
  e2_nonneg : 0 ≤ e2
  e2_lt_one : e2 < 1

namespace Ellipsoid
variable (E : Ellipsoid)

def b : ℝ := E.a * √(1 - E.e2)

def ep2 : ℝ := (E.a * E.a - E.b * E.b) / (E.b * E.b)

def normal (lat : ℝ) : ℝ := E.a / √(1 - E.e2 * sin lat * sin lat)

def meridianP (lat h : ℝ) : ℝ := (E.normal lat + h) * cos lat

def meridianZ (lat h : ℝ) : ℝ := (E.normal lat * (1 - E.e2) + h) * sin lat

/-- Auxiliary latitude of Bowring's formula. -/
def auxLatitude (p z : ℝ) : ℝ := atan2 (z * E.a) (p * E.b)

def bowringLatitude (p z : ℝ) : ℝ :=
  let sinTheta := sin (E.auxLatitude p z)
  let cosTheta := cos (E.auxLatitude p z)
  atan2 (z + E.ep2 * E.b * sinTheta * sinTheta * sinTheta)
    (p - E.e2 * E.a * cosTheta * cosTheta * cosTheta)

def bowringAltitude (p z : ℝ) : ℝ :=
  p / cos (E.bowringLatitude p z) - E.normal (E.bowringLatitude p z)

/-! ### Radii -/

theorem one_sub_e2_pos : 0 < 1 - E.e2 := sub_pos.mpr E.e2_lt_one

theorem b_pos : 0 < E.b := mul_pos E.a_pos (sqrt_pos.mpr E.one_sub_e2_pos)

theorem b_sq : E.b ^ 2 = E.a ^ 2 * (1 - E.e2) := by
  rw [b, mul_pow, sq_sqrt E.one_sub_e2_pos.le]

theorem ep2_mul_b_sq : E.ep2 * E.b ^ 2 = E.e2 * E.a ^ 2 := by
  have hb := E.b_pos.ne'
  have h : E.ep2 * E.b ^ 2 = E.a ^ 2 - E.b ^ 2 := by
    unfold ep2
    field_simp
  rw [h, b_sq]
  ring

theorem ep2_mul_one_sub : E.ep2 * (1 - E.e2) = E.e2 := by
  have ha := E.a_pos.ne'
  have h := E.ep2_mul_b_sq
  rw [b_sq] at h
  have h2 : E.a ^ 2 * (E.ep2 * (1 - E.e2)) = E.a ^ 2 * E.e2 := by linear_combination h
  exact mul_left_cancel₀ (pow_ne_zero 2 ha) h2

theorem ep2_nonneg : 0 ≤ E.ep2 := by
  have h : E.ep2 = E.e2 / (1 - E.e2) := by
    rw [eq_div_iff E.one_sub_e2_pos.ne', E.ep2_mul_one_sub]
  rw [h]
  exact div_nonneg E.e2_nonneg E.one_sub_e2_pos.le

theorem radicand_pos (lat : ℝ) : 0 < 1 - E.e2 * sin lat * sin lat := by
  have h1 := E.e2_lt_one
  have h0 := E.e2_nonneg
  have hs : sin lat ^ 2 ≤ 1 := sin_sq_le_one lat
  nlinarith [sq_nonneg (sin lat)]

theorem normal_sq (lat : ℝ) : E.normal lat ^ 2 * (1 - E.e2 * sin lat ^ 2) = E.a ^ 2 := by
  have h := E.radicand_pos lat
  have hs : 1 - E.e2 * sin lat * sin lat = 1 - E.e2 * sin lat ^ 2 := by ring
  rw [normal, div_pow, sq_sqrt h.le, hs]
  rw [hs] at h
  field_simp

theorem a_le_normal (lat : ℝ) : E.a ≤ E.normal lat := by
  have h := E.radicand_pos lat
  rw [normal, le_div_iff₀ (sqrt_pos.mpr h)]
  have h1 : √(1 - E.e2 * sin lat * sin lat) ≤ 1 := by
    rw [sqrt_le_one]
    nlinarith [sq_nonneg (sin lat), E.e2_nonneg]
  nlinarith [E.a_pos]

theorem b_le_a : E.b ≤ E.a := by
  have h1 : √(1 - E.e2) ≤ 1 := by
    rw [sqrt_le_one]
    linarith [E.e2_nonneg]
  have ha := E.a_pos
  unfold b
  nlinarith

/-! ### A point at altitude `h` against the ellipsoid -/

theorem scaled_surface (lat : ℝ) :
    hypot (E.meridianP lat 0 * E.b) (E.meridianZ lat 0 * E.a) = E.a * E.b := by
  have hab : 0 ≤ E.a * E.b := (mul_pos E.a_pos E.b_pos).le
  have hn := E.normal_sq lat
  have hb := E.b_sq
  have hc := cos_sq_add_sin_sq lat
  have h : hypot (E.meridianP lat 0 * E.b) (E.meridianZ lat 0 * E.a) ^ 2 = (E.a * E.b) ^ 2 := by
    rw [hypot_sq]
    simp only [meridianP, meridianZ, add_zero]
    have hcos : cos lat ^ 2 = 1 - sin lat ^ 2 := by linarith
    have e1 : (E.normal lat * cos lat * E.b) ^ 2
        = E.normal lat ^ 2 * (1 - sin lat ^ 2) * (E.a ^ 2 * (1 - E.e2)) := by
      rw [← hb, ← hcos]
      ring
    have e2 : (E.a * E.b) ^ 2 = E.a ^ 2 * (E.a ^ 2 * (1 - E.e2)) := by
      rw [← hb]
      ring
    rw [e1, e2]
    linear_combination E.a ^ 2 * (1 - E.e2) * hn
  exact (sq_eq_sq₀ (hypot_nonneg _ _) hab).mp h

def scaledNorm (p z : ℝ) : ℝ := hypot (p * E.b) (z * E.a)

theorem abs_scaledNorm_sub (lat h : ℝ) :
    |E.scaledNorm (E.meridianP lat h) (E.meridianZ lat h) - E.a * E.b| ≤ E.a * |h| := by
  set u : ℂ := ⟨E.meridianP lat h * E.b, E.meridianZ lat h * E.a⟩
  set v : ℂ := ⟨E.meridianP lat 0 * E.b, E.meridianZ lat 0 * E.a⟩
  have huv : u - v = ⟨h * (cos lat * E.b), h * (sin lat * E.a)⟩ := by
    apply Complex.ext
    · simp only [u, v, Complex.sub_re, meridianP]
      ring
    · simp only [u, v, Complex.sub_im, meridianZ]
      ring
  have hdiff : ‖u - v‖ ≤ E.a * |h| := by
    rw [huv, norm_mk]
    refine sqrt_le_iff.mpr ⟨mul_nonneg E.a_pos.le (abs_nonneg h), ?_⟩
    have hc := cos_sq_add_sin_sq lat
    have hba : E.b ^ 2 ≤ E.a ^ 2 := pow_le_pow_left₀ E.b_pos.le E.b_le_a 2
    have hle : (cos lat * E.b) ^ 2 + (sin lat * E.a) ^ 2 ≤ E.a ^ 2 := by
      nlinarith [sq_nonneg (cos lat)]
    calc h * (cos lat * E.b) * (h * (cos lat * E.b)) + h * (sin lat * E.a) * (h * (sin lat * E.a))
        = h ^ 2 * ((cos lat * E.b) ^ 2 + (sin lat * E.a) ^ 2) := by ring
      _ ≤ h ^ 2 * E.a ^ 2 := mul_le_mul_of_nonneg_left hle (sq_nonneg h)
      _ = (E.a * |h|) ^ 2 := by rw [mul_pow, sq_abs]; ring
  have hu : ‖u‖ = E.scaledNorm (E.meridianP lat h) (E.meridianZ lat h) := norm_mk _ _
  have hv : ‖v‖ = E.a * E.b := (norm_mk _ _).trans (E.scaled_surface lat)
  rw [← hu, ← hv]
  exact (abs_norm_sub_norm_le u v).trans hdiff

/-! ### One step of the formula

`S`, `C` are sine and cosine of the auxiliary latitude and `κ = a b / Q` for the
scaled norm `Q`; numerator and denominator of the step are then `z m` and
`p d` with `m = 1 + ep2 κ S²` and `d = 1 - e2 κ C²`. -/

theorem bracket_bound {S C l : ℝ} (hSC : C ^ 2 + S ^ 2 = 1) (hl : 0 < l) :
    |1 + C ^ 2 * (l - 1) - l / √(C ^ 2 + l ^ 2 * S ^ 2)| ≤ |l - 1| := by
  set G := √(C ^ 2 + l ^ 2 * S ^ 2)
  have hG2 : G ^ 2 = C ^ 2 + l ^ 2 * S ^ 2 := sq_sqrt (by positivity)
  have hG0 : 0 ≤ G := sqrt_nonneg _
  have hC : 0 ≤ C ^ 2 := sq_nonneg C
  have hS : 0 ≤ S ^ 2 := sq_nonneg S
  -- G lies between 1 and l, so l / G does too
  rcases le_total 1 l with h | h
  · have hl2 : 0 ≤ l ^ 2 - 1 := by nlinarith
    have h1 : 1 ≤ G := by
      refine le_of_sq_le_sq ?_ hG0
      linarith [mul_nonneg hS hl2]
    have h2 : G ≤ l := by
      refine le_of_sq_le_sq ?_ hl.le
      linarith [mul_nonneg hC hl2, congrArg (l ^ 2 * ·) hSC]
    have hlo : 1 ≤ l / G := (one_le_div (by linarith)).mpr h2
    have hhi : l / G ≤ l := div_le_self hl.le h1
    rw [abs_of_nonneg (sub_nonneg.mpr h), abs_le]
    constructor <;> nlinarith
  · have hl2 : 0 ≤ 1 - l ^ 2 := by nlinarith
    have h1 : G ≤ 1 := by
      refine le_of_sq_le_sq ?_ zero_le_one
      linarith [mul_nonneg hS hl2]
    have h2 : l ≤ G := by
      refine le_of_sq_le_sq ?_ hG0
      linarith [mul_nonneg hC hl2, congrArg (l ^ 2 * ·) hSC]
    have hGpos : 0 < G := lt_of_lt_of_le hl h2
    have hlo : l ≤ l / G := by
      rw [le_div_iff₀ hGpos]
      nlinarith
    have hhi : l / G ≤ 1 := (div_le_one hGpos).mpr h2
    rw [abs_of_nonpos (sub_nonpos.mpr h), abs_le]
    constructor <;> nlinarith

/-- Point seen from the latitude with tangent `A / D`, at the altitude that
reproduces the distance `p` from the axis. -/
theorem meridian_of_tangent {A D : ℝ} (hD : 0 < D) (p : ℝ) :
    E.meridianP (atan2 A D) (p / cos (atan2 A D) - E.normal (atan2 A D)) = p ∧
    E.meridianZ (atan2 A D) (p / cos (atan2 A D) - E.normal (atan2 A D))
      = p * (A / D) - E.e2 * E.a * A / √(D ^ 2 + (1 - E.e2) * A ^ 2) := by
  have hr : 0 < hypot D A := hypot_pos_of_left hD.ne' A
  have hcos : hypot D A * cos (atan2 A D) = D := hypot_mul_cos_atan2 D A
  have hsin : hypot D A * sin (atan2 A D) = A := hypot_mul_sin_atan2 D A
  have hc : 0 < cos (atan2 A D) := cos_atan2_pos hD A
  generalize hypot D A = r at hr hcos hsin
  generalize atan2 A D = lat at hcos hsin hc ⊢
  subst hcos hsin
  have htan : r * sin lat / (r * cos lat) = sin lat / cos lat := mul_div_mul_left _ _ hr.ne'
  have hroot : √((r * cos lat) ^ 2 + (1 - E.e2) * (r * sin lat) ^ 2)
      = r * √(1 - E.e2 * sin lat * sin lat) := by
    have h : (r * cos lat) ^ 2 + (1 - E.e2) * (r * sin lat) ^ 2
        = r ^ 2 * (1 - E.e2 * sin lat * sin lat) := by
      linear_combination r ^ 2 * cos_sq_add_sin_sq lat
    rw [h, sqrt_mul (sq_nonneg r), sqrt_sq hr.le]
  have hrad := sqrt_pos.mpr (E.radicand_pos lat)
  rw [htan, hroot]
  constructor
  · unfold meridianP
    field_simp
    ring
  · unfold meridianZ normal
    field_simp
    ring

/-- Numerator, denominator and tangent factor of the step at a point with
scaled norm `Q`, in the sine and cosine of the auxiliary latitude. -/
structure StepData (p z : ℝ) where
  Q : ℝ
  S : ℝ
  C : ℝ
  Q_pos : 0 < Q
  Q_mul_C : Q * C = p * E.b
  Q_mul_S : Q * S = z * E.a
  sq_add_sq : C ^ 2 + S ^ 2 = 1

namespace StepData
variable {E} {p z : ℝ} (st : E.StepData p z)

def κ : ℝ := E.a * E.b / st.Q
def d : ℝ := 1 - E.e2 * st.κ * st.C ^ 2
def m : ℝ := 1 + E.ep2 * st.κ * st.S ^ 2
def tangentFactor : ℝ := (1 - E.e2) * st.m / st.d

theorem κ_pos : 0 < st.κ := div_pos (mul_pos E.a_pos E.b_pos) st.Q_pos

theorem Q_mul_κ : st.Q * st.κ = E.a * E.b := mul_div_cancel₀ _ st.Q_pos.ne'

theorem den_eq : p - E.e2 * E.a * st.C * st.C * st.C = p * st.d := by
  have h : E.a * st.C = st.κ * p := by
    apply mul_left_cancel₀ st.Q_pos.ne'
    linear_combination E.a * st.Q_mul_C - p * st.Q_mul_κ
  unfold d
  linear_combination (-E.e2 * st.C ^ 2) * h

theorem num_eq : z + E.ep2 * E.b * st.S * st.S * st.S = z * st.m := by
  have h : E.b * st.S = st.κ * z := by
    apply mul_left_cancel₀ st.Q_pos.ne'
    linear_combination E.b * st.Q_mul_S - z * st.Q_mul_κ
  unfold m
  linear_combination (E.ep2 * st.S ^ 2) * h

theorem m_pos : 0 < st.m := by
  have h := mul_nonneg (mul_nonneg E.ep2_nonneg st.κ_pos.le) (sq_nonneg st.S)
  unfold m
  linarith

theorem d_ge : (st.Q - E.e2 * (E.a * E.b)) / st.Q ≤ st.d := by
  have hC : st.C ^ 2 ≤ 1 := by nlinarith [st.sq_add_sq, sq_nonneg st.S]
  have hk : 0 ≤ E.e2 * st.κ := mul_nonneg E.e2_nonneg st.κ_pos.le
  have h : (st.Q - E.e2 * (E.a * E.b)) / st.Q = 1 - E.e2 * st.κ := by
    rw [← st.Q_mul_κ]
    field_simp [st.Q_pos.ne']
  rw [h, d]
  nlinarith

variable (hQ : E.e2 * (E.a * E.b) < st.Q)
include hQ

theorem d_pos : 0 < st.d :=
  lt_of_lt_of_le (div_pos (sub_pos.mpr hQ) st.Q_pos) st.d_ge

theorem tangentFactor_pos : 0 < st.tangentFactor :=
  div_pos (mul_pos E.one_sub_e2_pos st.m_pos) (st.d_pos hQ)

theorem tangentFactor_sub_one : st.tangentFactor - 1 = E.e2 * (st.κ - 1) / st.d := by
  have hd := (st.d_pos hQ).ne'
  have h : (1 - E.e2) * st.m = 1 - E.e2 + E.e2 * st.κ * st.S ^ 2 := by
    unfold m
    linear_combination st.κ * st.S ^ 2 * E.ep2_mul_one_sub
  rw [tangentFactor, h, eq_div_iff hd, sub_mul, div_mul_cancel₀ _ hd, d]
  linear_combination E.e2 * st.κ * st.sq_add_sq

theorem root_eq :
    √((p * st.d) ^ 2 + (1 - E.e2) * (z * st.m) ^ 2)
      = st.Q * st.d / E.b * √(st.C ^ 2 + st.tangentFactor ^ 2 * st.S ^ 2) := by
  have ha := E.a_pos.ne'
  have hb := E.b_pos.ne'
  have hd := st.d_pos hQ
  have hscale : 0 ≤ st.Q * st.d / E.b := (div_pos (mul_pos st.Q_pos hd) E.b_pos).le
  have hpd : p * st.d = st.Q * st.d / E.b * st.C := by
    field_simp
    linear_combination -st.Q_mul_C
  have hzm : z * st.m * (E.b / E.a) = st.Q * st.d / E.b * (st.tangentFactor * st.S) := by
    rw [tangentFactor]
    field_simp
    linear_combination st.m * (z * E.b_sq - (1 - E.e2) * E.a * st.Q_mul_S)
  have hratio : (E.b / E.a) ^ 2 = 1 - E.e2 := by
    rw [div_pow, E.b_sq, mul_div_cancel_left₀ _ (pow_ne_zero 2 ha)]
  have h : (p * st.d) ^ 2 + (1 - E.e2) * (z * st.m) ^ 2
      = (st.Q * st.d / E.b) ^ 2 * (st.C ^ 2 + st.tangentFactor ^ 2 * st.S ^ 2) := by
    rw [← hratio, ← mul_pow, mul_comm (E.b / E.a), hzm, hpd]
    ring
  rw [h, sqrt_mul (sq_nonneg _), sqrt_sq hscale]

theorem z_error (hp : 0 < p) :
    p * (z * st.m / (p * st.d))
        - E.e2 * E.a * (z * st.m) / √((p * st.d) ^ 2 + (1 - E.e2) * (z * st.m) ^ 2) - z
      = E.ep2 * E.b * st.S * (1 + st.C ^ 2 * (st.tangentFactor - 1)
          - st.tangentFactor / √(st.C ^ 2 + st.tangentFactor ^ 2 * st.S ^ 2)) := by
  have hd := (st.d_pos hQ).ne'
  have hl := st.tangentFactor_pos hQ
  set G := √(st.C ^ 2 + st.tangentFactor ^ 2 * st.S ^ 2)
  have hG : 0 < G := by
    refine sqrt_pos.mpr ?_
    have h1 := st.sq_add_sq
    rcases eq_or_ne st.S 0 with h0 | h0
    · rw [h0] at h1 ⊢
      linarith
    · positivity
  have hbz : E.b * st.S = st.κ * z := by
    apply mul_left_cancel₀ st.Q_pos.ne'
    linear_combination E.b * st.Q_mul_S - z * st.Q_mul_κ
  have hfirst : p * (z * st.m / (p * st.d)) - z
      = E.ep2 * E.b * st.S * (1 + st.C ^ 2 * (st.tangentFactor - 1)) := by
    rw [st.tangentFactor_sub_one hQ]
    have hmd : z * (st.m - st.d) = E.ep2 * E.b * st.S * (1 - E.e2 * st.C ^ 2) := by
      unfold m d
      linear_combination (-(E.ep2 * st.S ^ 2 + E.e2 * st.C ^ 2)) * hbz
        - E.b * st.S * st.C ^ 2 * E.ep2_mul_one_sub + E.ep2 * E.b * st.S * st.sq_add_sq
    have hden : 1 + st.C ^ 2 * (E.e2 * (st.κ - 1) / st.d) = (1 - E.e2 * st.C ^ 2) / st.d := by
      rw [eq_div_iff hd, add_mul, mul_assoc, div_mul_cancel₀ _ hd, d]
      ring
    rw [hden, ← mul_div_assoc (E.ep2 * E.b * st.S), ← hmd]
    field_simp
  have hsecond : E.e2 * E.a * (z * st.m) / (st.Q * st.d / E.b * G)
      = E.ep2 * E.b * st.S * (st.tangentFactor / G) := by
    have hQ0 := st.Q_pos.ne'
    have hb := E.b_pos.ne'
    rw [tangentFactor]
    field_simp
    linear_combination (-(E.e2 * st.m)) * st.Q_mul_S
      - st.Q * st.S * st.m * E.ep2_mul_one_sub
  rw [st.root_eq hQ, hsecond]
  linear_combination hfirst

end StepData

def stepData {p z : ℝ} (hp : 0 < p) : E.StepData p z where
  Q := E.scaledNorm p z
  S := sin (E.auxLatitude p z)
  C := cos (E.auxLatitude p z)
  Q_pos := hypot_pos_of_left (mul_pos hp E.b_pos).ne' _
  Q_mul_C := hypot_mul_cos_atan2 _ _
  Q_mul_S := hypot_mul_sin_atan2 _ _
  sq_add_sq := cos_sq_add_sin_sq _

/-! ### Reconstruction -/

theorem scaledNorm_gt (lat h : ℝ) :
    E.a * ((1 - E.e2) * E.b - |h|)
      ≤ E.scaledNorm (E.meridianP lat h) (E.meridianZ lat h) - E.e2 * (E.a * E.b) := by
  have hQ := (abs_le.mp (E.abs_scaledNorm_sub lat h)).1
  linarith

section Reconstruction
variable {lat h : ℝ} (hlat : 0 < cos lat) (hh : |h| < (1 - E.e2) * E.b)
include hlat hh

theorem meridianP_pos : 0 < E.meridianP lat h := by
  have hb : (1 - E.e2) * E.b ≤ E.b := by nlinarith [E.b_pos, E.e2_nonneg]
  have hn := E.a_le_normal lat
  have hneg := neg_abs_le h
  exact mul_pos (by linarith [E.b_le_a]) hlat

theorem tangentFactor_bound :
    |(E.stepData (z := E.meridianZ lat h) (E.meridianP_pos hlat hh)).tangentFactor - 1|
      ≤ E.e2 * |h| / ((1 - E.e2) * E.b - |h|) := by
  set st := E.stepData (z := E.meridianZ lat h) (E.meridianP_pos hlat hh)
  have hgap : 0 < (1 - E.e2) * E.b - |h| := sub_pos.mpr hh
  have hQ : E.a * ((1 - E.e2) * E.b - |h|) ≤ st.Q - E.e2 * (E.a * E.b) := E.scaledNorm_gt lat h
  have hmargin : 0 < st.Q - E.e2 * (E.a * E.b) := lt_of_lt_of_le (mul_pos E.a_pos hgap) hQ
  have hlt : E.e2 * (E.a * E.b) < st.Q := sub_pos.mp hmargin
  have hκ : |st.κ - 1| ≤ E.a * |h| / st.Q := by
    have hnum : |st.Q - E.a * E.b| ≤ E.a * |h| := E.abs_scaledNorm_sub lat h
    have he : st.κ - 1 = -(st.Q - E.a * E.b) / st.Q := by
      rw [StepData.κ, neg_sub, sub_div, div_self st.Q_pos.ne']
    rw [he, abs_div, abs_neg, abs_of_pos st.Q_pos]
    exact div_le_div_of_nonneg_right hnum st.Q_pos.le
  rw [st.tangentFactor_sub_one hlt, abs_div, abs_mul, abs_of_nonneg E.e2_nonneg,
    abs_of_pos (st.d_pos hlt)]
  calc E.e2 * |st.κ - 1| / st.d
      ≤ E.e2 * (E.a * |h| / st.Q) / ((st.Q - E.e2 * (E.a * E.b)) / st.Q) := by
        refine div_le_div₀ ?_ (mul_le_mul_of_nonneg_left hκ E.e2_nonneg)
          (div_pos hmargin st.Q_pos) st.d_ge
        have := E.e2_nonneg
        have := E.a_pos
        have := st.Q_pos
        positivity
    _ = E.a * (E.e2 * |h|) / (st.Q - E.e2 * (E.a * E.b)) := by
        have := st.Q_pos.ne'
        field_simp
    _ ≤ E.a * (E.e2 * |h|) / (E.a * ((1 - E.e2) * E.b - |h|)) := by
        refine div_le_div_of_nonneg_left ?_ (mul_pos E.a_pos hgap) hQ
        exact mul_nonneg E.a_pos.le (mul_nonneg E.e2_nonneg (abs_nonneg h))
    _ = E.e2 * |h| / ((1 - E.e2) * E.b - |h|) := mul_div_mul_left _ _ E.a_pos.ne'

/-- Latitude and altitude of one step, seen as a point again: `p` is exact and
the error in `z` is the one of `StepData.z_error`. -/
theorem bowring_step :
    0 < cos (E.bowringLatitude (E.meridianP lat h) (E.meridianZ lat h)) ∧
    E.meridianP (E.bowringLatitude (E.meridianP lat h) (E.meridianZ lat h))
        (E.bowringAltitude (E.meridianP lat h) (E.meridianZ lat h)) = E.meridianP lat h ∧
    E.meridianZ (E.bowringLatitude (E.meridianP lat h) (E.meridianZ lat h))
        (E.bowringAltitude (E.meridianP lat h) (E.meridianZ lat h)) - E.meridianZ lat h
      = let st := E.stepData (z := E.meridianZ lat h) (E.meridianP_pos hlat hh)
        E.ep2 * E.b * st.S * (1 + st.C ^ 2 * (st.tangentFactor - 1)
          - st.tangentFactor / √(st.C ^ 2 + st.tangentFactor ^ 2 * st.S ^ 2)) := by
  have hp := E.meridianP_pos hlat hh
  set st := E.stepData (z := E.meridianZ lat h) hp
  have hQ : E.e2 * (E.a * E.b) < st.Q :=
    sub_pos.mp (lt_of_lt_of_le (mul_pos E.a_pos (sub_pos.mpr hh)) (E.scaledNorm_gt lat h))
  have hlat' : E.bowringLatitude (E.meridianP lat h) (E.meridianZ lat h)
      = atan2 (E.meridianZ lat h * st.m) (E.meridianP lat h * st.d) := by
    rw [← st.num_eq, ← st.den_eq]
    rfl
  have hD : 0 < E.meridianP lat h * st.d := mul_pos hp (st.d_pos hQ)
  obtain ⟨hP, hZ⟩ := E.meridian_of_tangent (A := E.meridianZ lat h * st.m) hD (E.meridianP lat h)
  unfold bowringAltitude
  rw [hlat']
  refine ⟨cos_atan2_pos hD _, hP, ?_⟩
  rw [hZ]
  exact st.z_error hQ hp

/-- One step reproduces every point up to an error along the polar axis that
is bounded in terms of its altitude. -/
theorem bowring_bound :
    |E.meridianZ (E.bowringLatitude (E.meridianP lat h) (E.meridianZ lat h))
        (E.bowringAltitude (E.meridianP lat h) (E.meridianZ lat h)) - E.meridianZ lat h|
      ≤ E.ep2 * E.b * (E.e2 * |h| / ((1 - E.e2) * E.b - |h|)) := by
  rw [(E.bowring_step hlat hh).2.2]
  set st := E.stepData (z := E.meridianZ lat h) (E.meridianP_pos hlat hh)
  have hQ : E.e2 * (E.a * E.b) < st.Q :=
    sub_pos.mp (lt_of_lt_of_le (mul_pos E.a_pos (sub_pos.mpr hh)) (E.scaledNorm_gt lat h))
  have hS : |st.S| ≤ 1 := abs_sin_le_one _
  have hK : 0 ≤ E.ep2 * E.b := mul_nonneg E.ep2_nonneg E.b_pos.le
  have hbr := (bracket_bound st.sq_add_sq (st.tangentFactor_pos hQ)).trans
    (E.tangentFactor_bound hlat hh)
  rw [abs_mul, abs_mul, abs_of_nonneg hK, mul_assoc]
  refine mul_le_mul_of_nonneg_left ?_ hK
  calc |st.S| * |1 + st.C ^ 2 * (st.tangentFactor - 1)
        - st.tangentFactor / √(st.C ^ 2 + st.tangentFactor ^ 2 * st.S ^ 2)|
      ≤ 1 * (E.e2 * |h| / ((1 - E.e2) * E.b - |h|)) :=
        mul_le_mul hS hbr (abs_nonneg _) zero_le_one
    _ = E.e2 * |h| / ((1 - E.e2) * E.b - |h|) := one_mul _

end Reconstruction

end Ellipsoid

end
