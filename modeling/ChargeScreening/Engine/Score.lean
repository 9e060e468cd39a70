import ChargeScreening.Charge

/-!
# Scores

Two scores are looked up for every charge and can be read by rules like any other attribute. A
score that cannot be had reads as minus one.

## Main definitions

* `ScoreSource`: where a score comes from
* `ScoreSource.lookUp`: the score, and how long it takes
* `Charge.scored`: the attributes of a charge together with its scores
-/

namespace ChargeScreening

/-- Where a score comes from: one answer for every charge, or none when every look-up fails. -/
structure ScoreSource where
  score : Option Float
  delayMs : Nat := 0

/-- What stands for a score that cannot be had. -/
def noScore : Float := -1.0

/-- The score and the time it takes, under a time limit. Without a client it takes none. -/
def ScoreSource.lookUp (limitMs : Nat) : Option ScoreSource → Float × Nat
  | none => (noScore, 0)
  | some c =>
    if c.delayMs ≤ limitMs then (c.score.getD noScore, c.delayMs)
    else (noScore, limitMs)

/-- The attributes of a charge together with its scores. -/
def Charge.scored (c : Charge) (omniscore merchantScore : Float) : Attributes :=
  (c.attributes.set "omniscore" (.number omniscore)).set "merchant_score" (.number merchantScore)

end ChargeScreening
