import StageMonitor.Association
import StageMonitor.Violation

/-! # Panel styles

A style is built up by changes, each of which keeps the others. Colours are pinned to series by
name, in the order in which the names come up.
-/

namespace StageMonitor

inductive Color
  | orange
  | semiDarkGreen
  | darkGreen
  | darkBlue
  | semiDarkPurple
  | lightRed
  | semiDarkRed
  | semiDarkYellow
  deriving DecidableEq, Repr

namespace Color

def all : List Color :=
  [orange, semiDarkGreen, darkGreen, darkBlue, semiDarkPurple, lightRed, semiDarkRed,
    semiDarkYellow]

def name : Color → String
  | orange => "orange"
  | semiDarkGreen => "semi-dark-green"
  | darkGreen => "dark-green"
  | darkBlue => "dark-blue"
  | semiDarkPurple => "semi-dark-purple"
  | lightRed => "light-red"
  | semiDarkRed => "semi-dark-red"
  | semiDarkYellow => "semi-dark-yellow"

end Color

inductive Interpolation
  | smooth
  | linear
  deriving DecidableEq, Repr

def Interpolation.name : Interpolation → String
  | smooth => "smooth"
  | linear => "linear"

inductive Stacking
  | none
  | normal
  deriving DecidableEq, Repr

def Stacking.name : Stacking → String
  | none => "none"
  | normal => "normal"

structure Style where
  fill : Nat
  interpolation : Interpolation
  stacking : Stacking
  colors : List (String × Color)
  fill_le : fill ≤ 100
  colors_nodup : (Association.keys colors).Nodup

namespace Style

def initial : Style where
  fill := 20
  interpolation := .smooth
  stacking := .none
  colors := []
  fill_le := by decide
  colors_nodup := List.nodup_nil

def withFill (style : Style) (fill : Nat) (h : fill ≤ 100) : Style :=
  { style with fill, fill_le := h }

def linear (style : Style) : Style :=
  { style with interpolation := .linear }

def stacked (style : Style) : Style :=
  { style with stacking := .normal }

def withColor (style : Style) (series : String) (color : Color) : Style :=
  { style with
    colors := Association.put series color style.colors
    colors_nodup := Association.nodup_keys_put style.colors_nodup }

def withColors (style : Style) (pins : List (String × Color)) : Style :=
  pins.foldl (fun style (series, color) => style.withColor series color) style

end Style

inductive StyleChange
  | fill (percentage : Nat)
  | linear
  | stacked
  | color (series : String) (color : Color)
  deriving DecidableEq, Repr

namespace Style

def change (style : Style) : StyleChange → Except Violation Style
  | .fill n => if h : n ≤ 100 then .ok (style.withFill n h) else .error (.notPercentage n)
  | .linear => .ok style.linear
  | .stacked => .ok style.stacked
  | .color series color => .ok (style.withColor series color)

/-- A change that is refused leaves the style as it was. -/
def changeOrKeep (style : Style) (c : StyleChange) : Style :=
  match style.change c with
  | .ok changed => changed
  | .error _ => style

/-- The style after all changes, or the first refusal. -/
def changeAll (style : Style) : List StyleChange → Except Violation Style
  | [] => .ok style
  | c :: cs =>
    match style.change c with
    | .ok changed => changed.changeAll cs
    | .error violation => .error violation

end Style

end StageMonitor
