import SiteManifest.Text.Property

/-!
# Texts to be seen

How messages and logs are written: styled for a terminal, with the strings they found in quotes, and
with counted nouns.
-/
namespace SiteManifest.Text

/-! ## Styles

Escape sequences that colour a text or set its weight. A style opens with one code and closes with
the code that resets what it changed, so styles nest. -/

inductive Style where
  | bold
  | dimmed
  | red
  | yellow
  | cyan
  | brightRed
  | brightGreen
  | brightYellow
  | brightBlue
  deriving DecidableEq, Repr

/-- The code that switches the style on. -/
def Style.opening : Style → Nat
  | .bold => 1
  | .dimmed => 2
  | .red => 31
  | .yellow => 33
  | .cyan => 36
  | .brightRed => 91
  | .brightGreen => 92
  | .brightYellow => 93
  | .brightBlue => 94

/-- Weight is reset as a whole, colour by the default colour. -/
def Style.closing : Style → Nat
  | .bold | .dimmed => 0
  | _ => 39

def escapeCode (n : Nat) : String := "\x1b[" ++ toString n ++ "m"

def Style.paint (style : Style) (s : String) : String :=
  escapeCode style.opening ++ s ++ escapeCode style.closing

/-! ## Quotes

A text between double quotes with everything that cannot be seen spelt out. Letters of any script
stay as they are. -/

/-- Lower-case hexadecimal digits without leading zeros. -/
def hexDigits (n : Nat) : String := String.ofList (Nat.toDigits 16 n)

/-- The spelling of one character between the quotes. -/
def quotedChar (c : Char) : String :=
  if c = '"' then "\\\""
  else if c = '\\' then "\\\\"
  else if c = '\n' then "\\n"
  else if c = '\r' then "\\r"
  else if c = '\t' then "\\t"
  else if c.toNat = 0 then "\\0"
  else if isPrintable c then c.toString
  else "\\u\x7b" ++ hexDigits c.toNat ++ "\x7d"

def quoted (s : String) : String :=
  "\"" ++ String.join (s.toList.map quotedChar) ++ "\""

/-! ## Counted nouns -/

/-- The plural ending: nothing after exactly one. -/
def pluralEnding (n : Nat) : String := if n = 1 then "" else "s"

/-- A count with its noun, as in `2 presets`. -/
def counted (n : Nat) (noun : String) : String :=
  toString n ++ " " ++ noun ++ pluralEnding n

end SiteManifest.Text
