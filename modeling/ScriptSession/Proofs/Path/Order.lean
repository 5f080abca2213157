import ScriptSession.Path

/-!
# The order of paths

Components are ordered by their kind and names by their characters, and lists of components by the
first one that differs. So the order of paths compares any two of them (`le_total`) and is
transitive (`le_trans`).
-/

namespace ScriptSession
namespace Path

namespace Component

theorem le_total (a b : Component) : a.le b = true ∨ b.le a = true := by
  cases a <;> cases b <;> simp [le, rank, String.le_total]

theorem le_trans {a b c : Component} (hab : a.le b = true) (hbc : b.le c = true) :
    a.le c = true := by
  cases a <;> cases b <;> cases c <;> simp_all [le, rank]
  exact String.le_trans hab hbc

theorem le_antisymm {a b : Component} (hab : a.le b = true) (hba : b.le a = true) : a = b := by
  cases a <;> cases b <;> simp_all [le, rank]
  exact String.le_antisymm hab hba

end Component

/-! ## Lists of components -/

theorem leComponents_total (as bs : List Component) :
    leComponents as bs = true ∨ leComponents bs as = true := by
  induction as generalizing bs with
  | nil => exact .inl rfl
  | cons a as ih =>
    cases bs with
    | nil => exact .inr rfl
    | cons b bs =>
      by_cases h : a = b
      · simpa [leComponents, h] using ih bs
      · simpa [leComponents, h, Ne.symm h] using a.le_total b

theorem leComponents_trans {as bs cs : List Component} (hab : leComponents as bs = true)
    (hbc : leComponents bs cs = true) : leComponents as cs = true := by
  induction as generalizing bs cs with
  | nil => rfl
  | cons a as ih =>
    cases bs with
    | nil => cases hab
    | cons b bs =>
      cases cs with
      | nil => cases hbc
      | cons c cs =>
        rw [leComponents] at hab hbc ⊢
        -- The earlier one of the two first differences decides, or both if they are at one place.
        by_cases hb : a = b
        · subst hb
          rw [if_pos rfl] at hab
          by_cases hc : a = c
          · rw [if_pos hc] at hbc ⊢
            exact ih hab hbc
          · rw [if_neg hc] at hbc ⊢
            exact hbc
        · rw [if_neg hb] at hab
          by_cases hc : b = c
          · subst hc
            rw [if_neg hb]
            exact hab
          · rw [if_neg hc] at hbc
            rw [if_neg]
            · exact Component.le_trans hab hbc
            · rintro rfl
              exact hb (Component.le_antisymm hab hbc)

/-! ## Paths -/

theorem le_total (p q : Path) : p.le q = true ∨ q.le p = true := leComponents_total _ _

theorem le_trans {p q r : Path} (hpq : p.le q = true) (hqr : q.le r = true) : p.le r = true :=
  leComponents_trans hpq hqr

end Path
end ScriptSession
