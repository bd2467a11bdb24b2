namespace SceneScript

inductive Command where
  | say
  | changeBg
  | changeFigure
  | bgm
  | video
  | pixi
  | pixiInit
  | intro
  | miniAvatar
  | changeScene
  | choose
  | finish
  | setComplexAnimation
  | setFilter
  | label
  | jumpLabel
  | chooseLabel
  | setVar
  | branch
  | callScene
  | showVars
  | unlockCg
  | unlockBgm
  | filmMode
  | setTextbox
  | setAnimation
  | playEffect
  | setTempAnimation
  | comment
  | setTransform
  | setTransition
  | getUserInput
  | applyStyle
  | wait
deriving DecidableEq, Repr

namespace Command

def all : List Command :=
  [say, changeBg, changeFigure, bgm, video, pixi, pixiInit, intro, miniAvatar, changeScene,
    choose, finish, setComplexAnimation, setFilter, label, jumpLabel, chooseLabel, setVar, branch,
    callScene, showVars, unlockCg, unlockBgm, filmMode, setTextbox, setAnimation, playEffect,
    setTempAnimation, comment, setTransform, setTransition, getUserInput, applyStyle, wait]

def code (c : Command) : Nat :=
  c.ctorIdx

def ofCode? (n : Nat) : Option Command :=
  all[n]?

def keyword : Command → String
  | say => "say"
  | changeBg => "changeBg"
  | changeFigure => "changeFigure"
  | bgm => "bgm"
  | video => "playVideo"
  | pixi => "pixiPerform"
  | pixiInit => "pixiInit"
  | intro => "intro"
  | miniAvatar => "miniAvatar"
  | changeScene => "changeScene"
  | choose => "choose"
  | finish => "end"
  | setComplexAnimation => "setComplexAnimation"
  | setFilter => "setFilter"
  | label => "label"
  | jumpLabel => "jumpLabel"
  | chooseLabel => "chooseLabel"
  | setVar => "setVar"
  | branch => "if"
  | callScene => "callScene"
  | showVars => "showVars"
  | unlockCg => "unlockCg"
  | unlockBgm => "unlockBgm"
  | filmMode => "filmMode"
  | setTextbox => "setTextbox"
  | setAnimation => "setAnimation"
  | playEffect => "playEffect"
  | setTempAnimation => "setTempAnimation"
  | comment => "comment"
  | setTransform => "setTransform"
  | setTransition => "setTransition"
  | getUserInput => "getUserInput"
  | applyStyle => "applyStyle"
  | wait => "wait"

def ofKeyword? (keyword : String) : Option Command :=
  all.find? fun c => c != comment && c.keyword == keyword

end Command

inductive AssetKind where
  | background
  | bgm
  | figure
  | scene
  | tex
  | vocal
  | video
deriving DecidableEq, Repr

namespace AssetKind

def all : List AssetKind :=
  [background, bgm, figure, scene, tex, vocal, video]

def code (k : AssetKind) : Nat :=
  k.ctorIdx

def ofCode? (n : Nat) : Option AssetKind :=
  all[n]?

def keyword : AssetKind → String
  | background => "background"
  | bgm => "bgm"
  | figure => "figure"
  | scene => "scene"
  | tex => "tex"
  | vocal => "vocal"
  | video => "video"

def folder (k : AssetKind) : String :=
  k.keyword

end AssetKind
end SceneScript
