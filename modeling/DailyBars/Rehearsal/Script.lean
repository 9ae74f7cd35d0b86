import DailyBars.Session

/-!
# Scripts

A party of a rehearsal that answers whatever it is asked with the next line of its script, and keeps
a record of the questions.
-/

namespace DailyBars

/-- A script with answers of type `ω` to questions of type `ι`. -/
structure Script (ι ω : Type) where
  answers : List ω
  /-- The questions asked so far, oldest first. -/
  asked : List ι

namespace Script

variable {ι ω : Type}

/-- A script that was not read from yet. -/
def ofAnswers (answers : List ω) : Script ι ω := ⟨answers, []⟩

/-- The answer to a question, unless the script is at its end. -/
def ask (s : Script ι ω) (q : ι) : Option ω × Script ι ω :=
  (s.answers.head?, ⟨s.answers.tail, s.asked ++ [q]⟩)

end Script

end DailyBars
