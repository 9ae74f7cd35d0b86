import DailyBars.Program.Collector

/-!
# A process without a network

Every connection is refused, so that a run ends when it asks for the first one.
-/

namespace DailyBars

/-- What a process keeps that reaches nobody. -/
structure Offline where
  desk : TokenDesk
  pacing : Pacing

namespace Offline

/-- Nothing was asked for yet. -/
def start : Offline := ⟨.empty, .start 1 0⟩

/-- What a failed connection says. -/
def refusal : String := "Connection refused"

/-- Nobody can be reached. -/
def outside : Outside Offline where
  database _ _ := throw (.connection refusal)
  migrations := throw .poolTimedOut
  redis _ := throw (.connection refusal)
  http _ := throw (.unreachable refusal)
  desk := ⟨(·.desk), fun d w => { w with desk := d }⟩
  pacing := ⟨(·.pacing), fun p w => { w with pacing := p }⟩
  holder := "collector"
  freshId := return ""
  freshNonce := return .ofBytes []

end Offline

end DailyBars
