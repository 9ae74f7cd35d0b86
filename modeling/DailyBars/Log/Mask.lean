/-!
# Masks

What may be shown of credentials. A mask keeps a few characters of a value and covers the rest with
a fixed number of asterisks, so that the length of the value does not show; a value too short to
keep anything of is covered as a whole.
-/

namespace DailyBars.Mask

/-- `n` asterisks. -/
def stars (n : Nat) : String := String.ofList (List.replicate n '*')

/-- What is shown of a value that is too short. -/
def covered : String := stars 3

/-- Keeps the first `keep` characters. -/
def keepFront (keep hidden : Nat) (s : String) : String :=
  if s.toList.length ≤ keep then covered
  else String.ofList (s.toList.take keep) ++ stars hidden

/-- Keeps the last `keep` characters. -/
def keepBack (keep hidden : Nat) (s : String) : String :=
  if s.toList.length ≤ keep then covered
  else stars hidden ++ String.ofList (s.toList.drop (s.toList.length - keep))

/-- A user's name at the broker. -/
def userId : String → String := keepFront 2 8

/-- The number of an account. -/
def accountNumber : String → String := keepBack 4 7

/-- The public half of an account's key pair. -/
def appKey : String → String := keepFront 4 12

/-- The secret half of an account's key pair, of which nothing is shown. -/
def appSecret (_ : String) : String := stars 22

/-- An access token. -/
def accessToken : String → String := keepFront 4 16

end DailyBars.Mask
