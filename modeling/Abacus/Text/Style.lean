/-!
# Styles of text on a terminal

A word can be shown in a style by a control sequence before it and another one behind it.

## Main definitions

* `Style.paint`: a word in a style, or plain where styles are off;
* `Style.enabled`: whether styles are on, from the variables that users set for it.
-/

namespace Abacus.Text

/-- The styles in use. -/
inductive Style where
  | redBold | yellowBold | green | blue | dimmed
deriving DecidableEq, Repr

namespace Style

/-- The codes that turn a style on. -/
def codes : Style → String
  | redBold => "1;31"
  | yellowBold => "1;33"
  | green => "32"
  | blue => "34"
  | dimmed => "2"

/-- A word in a style; plain if styles are off. -/
def paint (on : Bool) (style : Style) (word : String) : String :=
  if on then "\x1b[" ++ style.codes ++ "m" ++ word ++ "\x1b[0m" else word

@[simp] theorem paint_off (style : Style) (word : String) : paint false style word = word := rfl

/-- The variables that users set for styles. -/
def consulted : List String := ["CLICOLOR_FORCE", "NO_COLOR", "CLICOLOR"]

/-- Whether styles are on.  A `CLICOLOR_FORCE` other than zero turns them on, else any `NO_COLOR`
turns them off; else they are on at a terminal unless `CLICOLOR` is zero. -/
def enabled (value? : String → Option String) (terminal : Bool) : Bool :=
  if (value? "CLICOLOR_FORCE").any (· != "0") then true
  else (value? "NO_COLOR").isNone && terminal && value? "CLICOLOR" != some "0"

end Style

end Abacus.Text
