import CardGame.Decision.Basic
import CardGame.Failure

/-!
Whether an answer fits its question.
-/

namespace CardGame

/-- Sums of shares stay within one unsigned 32-bit word. -/
def maxTotal : Nat := 4294967295

namespace Question

/-- The number of chosen items lies between two bounds. -/
def checkCount (what : String) (chosen min max : Nat) : Except Failure Unit :=
  if chosen < min || max < chosen then .error (.wrongCount what chosen min max) else .ok ()

/-- Every chosen object was offered, and none is chosen twice. -/
def checkChosen (what : String) (offered : List ObjectId) :
    List ObjectId → List ObjectId → Except Failure Unit
  | [], _ => .ok ()
  | o :: rest, seen =>
    if !offered.contains o then .error (.notOffered what o)
    else if seen.contains o then .error (.chosenTwice what o)
    else checkChosen what offered rest (o :: seen)

/-- Every chosen mode exists, and none is chosen twice. -/
def checkModes (modes : Nat) : List Nat → List Nat → Except Failure Unit
  | [], _ => .ok ()
  | m :: rest, seen =>
    if modes ≤ m then .error (.noSuchMode m)
    else if seen.contains m then .error (.modeChosenTwice m)
    else checkModes modes rest (m :: seen)

/-- Every share goes to a recipient. -/
def checkRecipients (recipients : List ObjectId) : List ObjectId → Except Failure Unit
  | [] => .ok ()
  | o :: rest =>
    if recipients.contains o then checkRecipients recipients rest else .error (.notRecipient o)

/-- Every recipient gets at least the minimum. -/
def checkShares (shares : SortedMap ObjectId Nat) (minimum : Nat) :
    List ObjectId → Except Failure Unit
  | [] => .ok ()
  | o :: rest =>
    let share := (shares.find? o).getD 0
    if share < minimum then .error (.smallShare o share minimum)
    else checkShares shares minimum rest

/-- Adds up shares, unless the sum leaves one word on the way. -/
def addShares : List Nat → Nat → Option Nat
  | [], sum => some sum
  | share :: rest, sum => if sum + share ≤ maxTotal then addShares rest (sum + share) else none

/-- The shares add up to the total. -/
def checkSum (total : Nat) (shares : List Nat) : Except Failure Unit :=
  match addShares shares 0 with
  | none => .error .distributionOverflow
  | some sum => if sum ≠ total then .error (.wrongTotal sum total) else .ok ()

/-- Whether an answer fits the question, and if not, what is wrong with it. -/
def check : Question → Answer → Except Failure Unit
  | .targets legal min max, .targets chosen => do
    checkCount "targets" chosen.length min max
    checkChosen "targets" legal chosen []
  | .cards options min max _, .cards chosen => do
    checkCount "cards" chosen.length min max
    checkChosen "cards" options chosen []
  | .yesNo, .yesNo _ => .ok ()
  | .modes descriptions min max, .modes chosen => do
    checkCount "modes" chosen.length min max
    checkModes descriptions.length chosen []
  | .color options, .color chosen =>
    if options.contains chosen then .ok () else .error (.colorNotOffered chosen)
  | .option options, .option index =>
    if index < options.length then .ok () else .error (.optionOutOf index options.length)
  | .number min max, .number n =>
    if min ≤ n && n ≤ max then .ok () else .error (.numberOutside n min max)
  | .distribution total recipients minimum, .distribution shares => do
    checkRecipients recipients shares.keys
    checkShares shares minimum recipients
    checkSum total shares.values
  | .order objects, .order chosen => do
    checkCount "order" chosen.length objects.length objects.length
    checkChosen "order" objects chosen []
  | .piles objects, .firstPile chosen => checkChosen "pile" objects chosen []
  | question, answer => .error (.wrongAnswer question.name answer.name)

end Question

end CardGame
