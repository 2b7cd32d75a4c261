import CardGame.Effect.Basic

/-!
The kinds of effects and the family that resolves each kind.
-/

namespace CardGame

inductive EffectKind where
  | modifyStats | setBasePowerToughness | animate | grantKeyword | removeKeyword
  | modifyStatsForGroup | grantKeywordToGroup | gainControl | regenerate | exileOnDeath
  | tap | untap | addCounters | removeCounters | distributeCounters
  | destroy | destroyAll | exile | returnToHand | sacrifice
  | dealDamage | dealDividedDamage | gainLife | loseLife
  | draw | discard | discardAtRandom | mill | shuffleLibrary | scry | lookAtTopAndReorder
  | searchLibrary | revealAndSeparate | createToken
  | composite | conditional | may | modal | payOrSuffer | chooseColorProtection
  | targetOnResolution | eachPlayerChooses
deriving DecidableEq

namespace EffectKind

/-- Every kind, in order. -/
def all : List EffectKind :=
  [.modifyStats, .setBasePowerToughness, .animate, .grantKeyword, .removeKeyword,
    .modifyStatsForGroup, .grantKeywordToGroup, .gainControl, .regenerate, .exileOnDeath,
    .tap, .untap, .addCounters, .removeCounters, .distributeCounters,
    .destroy, .destroyAll, .exile, .returnToHand, .sacrifice,
    .dealDamage, .dealDividedDamage, .gainLife, .loseLife,
    .draw, .discard, .discardAtRandom, .mill, .shuffleLibrary, .scry, .lookAtTopAndReorder,
    .searchLibrary, .revealAndSeparate, .createToken,
    .composite, .conditional, .may, .modal, .payOrSuffer, .chooseColorProtection,
    .targetOnResolution, .eachPlayerChooses]

theorem mem_all (k : EffectKind) : k ∈ all := by cases k <;> simp [all]

def name : EffectKind → String
  | .modifyStats => "ModifyStats"
  | .setBasePowerToughness => "SetBasePowerToughness"
  | .animate => "Animate"
  | .grantKeyword => "GrantKeyword"
  | .removeKeyword => "RemoveKeyword"
  | .modifyStatsForGroup => "ModifyStatsForGroup"
  | .grantKeywordToGroup => "GrantKeywordToGroup"
  | .gainControl => "GainControl"
  | .regenerate => "Regenerate"
  | .exileOnDeath => "ExileOnDeath"
  | .tap => "Tap"
  | .untap => "Untap"
  | .addCounters => "AddCounters"
  | .removeCounters => "RemoveCounters"
  | .distributeCounters => "DistributeCounters"
  | .destroy => "Destroy"
  | .destroyAll => "DestroyAll"
  | .exile => "Exile"
  | .returnToHand => "ReturnToHand"
  | .sacrifice => "Sacrifice"
  | .dealDamage => "DealDamage"
  | .dealDividedDamage => "DealDividedDamage"
  | .gainLife => "GainLife"
  | .loseLife => "LoseLife"
  | .draw => "Draw"
  | .discard => "Discard"
  | .discardAtRandom => "DiscardAtRandom"
  | .mill => "Mill"
  | .shuffleLibrary => "ShuffleLibrary"
  | .scry => "Scry"
  | .lookAtTopAndReorder => "LookAtTopAndReorder"
  | .searchLibrary => "SearchLibrary"
  | .revealAndSeparate => "RevealAndSeparate"
  | .createToken => "CreateToken"
  | .composite => "Composite"
  | .conditional => "Conditional"
  | .may => "May"
  | .modal => "Modal"
  | .payOrSuffer => "PayOrSuffer"
  | .chooseColorProtection => "ChooseColorProtection"
  | .targetOnResolution => "TargetOnResolution"
  | .eachPlayerChooses => "EachPlayerChooses"

end EffectKind

/-- The kind of an effect. -/
def Effect.kind : Effect → EffectKind
  | .continuous e =>
    match e with
    | .modifyStats .. => .modifyStats
    | .setBase .. => .setBasePowerToughness
    | .animate .. => .animate
    | .grantKeyword .. => .grantKeyword
    | .removeKeyword .. => .removeKeyword
    | .modifyGroup .. => .modifyStatsForGroup
    | .grantKeywordToGroup .. => .grantKeywordToGroup
    | .gainControl .. => .gainControl
    | .regenerate .. => .regenerate
    | .exileOnDeath .. => .exileOnDeath
    | .protectFromColor .. => .chooseColorProtection
  | .permanent e =>
    match e with
    | .tap .. => .tap
    | .untap .. => .untap
    | .addCounters .. => .addCounters
    | .removeCounters .. => .removeCounters
    | .distributeCounters .. => .distributeCounters
  | .removal e =>
    match e with
    | .destroy .. => .destroy
    | .destroyAll .. => .destroyAll
    | .exile .. => .exile
    | .returnToHand .. => .returnToHand
    | .sacrifice .. => .sacrifice
  | .damage e =>
    match e with
    | .deal .. => .dealDamage
    | .divide .. => .dealDividedDamage
    | .gainLife .. => .gainLife
    | .loseLife .. => .loseLife
  | .library e =>
    match e with
    | .draw .. => .draw
    | .discard .. => .discard
    | .discardAtRandom .. => .discardAtRandom
    | .mill .. => .mill
    | .shuffle .. => .shuffleLibrary
    | .scry .. => .scry
    | .reorderTop .. => .lookAtTopAndReorder
    | .search .. => .searchLibrary
    | .separate .. => .revealAndSeparate
    | .createToken .. => .createToken
  | .composite .. => .composite
  | .conditional .. => .conditional
  | .may .. => .may
  | .modal .. => .modal
  | .payOrSuffer .. => .payOrSuffer
  | .chooseTargets .. => .targetOnResolution
  | .eachPlayerChooses .. => .eachPlayerChooses

/-- The families of effects. -/
inductive Family where
  | continuous | permanents | removal | damage | library | choice
deriving DecidableEq

namespace Family

def all : List Family := [.continuous, .permanents, .removal, .damage, .library, .choice]

def name : Family → String
  | .continuous => "continuous"
  | .permanents => "permanents"
  | .removal => "removal"
  | .damage => "damage"
  | .library => "library"
  | .choice => "choice"

/-- The kinds of a family. -/
def kinds : Family → List EffectKind
  | .continuous =>
    [.modifyStats, .setBasePowerToughness, .animate, .grantKeyword, .removeKeyword,
      .modifyStatsForGroup, .grantKeywordToGroup, .gainControl, .regenerate, .exileOnDeath,
      .chooseColorProtection]
  | .permanents => [.tap, .untap, .addCounters, .removeCounters, .distributeCounters]
  | .removal => [.destroy, .destroyAll, .exile, .returnToHand, .sacrifice]
  | .damage => [.dealDamage, .dealDividedDamage, .gainLife, .loseLife]
  | .library =>
    [.draw, .discard, .discardAtRandom, .mill, .shuffleLibrary, .scry, .lookAtTopAndReorder,
      .searchLibrary, .revealAndSeparate, .createToken]
  | .choice =>
    [.composite, .conditional, .may, .modal, .payOrSuffer, .targetOnResolution,
      .eachPlayerChooses]

end Family

/-- The family of an effect. -/
def Effect.family : Effect → Family
  | .continuous _ => .continuous
  | .permanent _ => .permanents
  | .removal _ => .removal
  | .damage _ => .damage
  | .library _ => .library
  | _ => .choice

/-- An effect's kind is one of its family's kinds. -/
theorem Effect.kind_mem_family (e : Effect) : e.kind ∈ e.family.kinds := by
  cases e with
  | continuous e => cases e <;> simp [kind, family, Family.kinds]
  | permanent e => cases e <;> simp [kind, family, Family.kinds]
  | removal e => cases e <;> simp [kind, family, Family.kinds]
  | damage e => cases e <;> simp [kind, family, Family.kinds]
  | library e => cases e <;> simp [kind, family, Family.kinds]
  | _ => simp [kind, family, Family.kinds]

instance : Ranked EffectKind where
  rank k := [k.ctorIdx]
  rank_inj {a b} h := by
    have hab : a.ctorIdx = b.ctorIdx := by simpa using h
    cases a <;> cases b <;> first | rfl | cases hab

end CardGame
