import SiteManifest.Json.Lexeme

/-!
# Reading JSON text

A reader for every kind of value, each returning the value with the rest of the text. Nesting is
limited: a bracket that opens one level too many is a failure.
-/
namespace SiteManifest.Json

open Lexeme Text

/-- A word of the language by its first letter. -/
def word? (c : Char) : Option (Json × List Char) :=
  if c = 'n' then some (.null, "ull".toList)
  else if c = 't' then some (.bool true, "rue".toList)
  else if c = 'f' then some (.bool false, "alse".toList)
  else none

/-- A scalar that starts with `c`; anything else is no value. -/
def scalar (c : Char) (cs : List Char) : Except Failure (Json × List Char) :=
  match word? c with
  | some (value, word) => wordRest value word cs
  | none =>
    if c = '-' then (Lexeme.number true cs).map fun (n, rest) => (.number n, rest)
    else if c.isDigit then (Lexeme.number false (c :: cs)).map fun (n, rest) => (.number n, rest)
    else .error (.onNext .expectedValue (c :: cs))

/-- The text after a scalar, cut to what follows its first character. -/
def scalarFound (c : Char) (cs : List Char) : Except Failure (Found Json (c :: cs)) :=
  match scalar c cs with
  | .error e => .error e
  | .ok (value, rest) =>
    if h : rest.length < (c :: cs).length then .ok ⟨value, rest, h⟩
    else .error (.onNext .expectedValue (c :: cs))

mutual

/-- A value within `depth` more levels of nesting. -/
def value (depth : Nat) (cs : List Char) : Except Failure (Found Json cs) :=
  match h : skipBlanks cs with
  | [] => .error (.here .endInValue [])
  | c :: rest =>
    have shorter := length_lt_of_skipBlanks h
    if c = '"' then
      match stringRest rest with
      | .error e => .error e
      | .ok s => .ok ((s.map fun s => .string (String.ofList s)).behind shorter)
    else if c = '[' then
      match depth with
      | 0 => .error (.onNext .tooDeep (c :: rest))
      | depth + 1 =>
        match items depth rest with
        | .error e => .error e
        | .ok vs => .ok ((vs.map .list).behind shorter)
    else if c = '\x7b' then
      match depth with
      | 0 => .error (.onNext .tooDeep (c :: rest))
      | depth + 1 =>
        match members depth rest with
        | .error e => .error e
        | .ok ms => .ok ((ms.map tableOf).behind shorter)
    else
      match scalarFound c rest with
      | .error e => .error e
      | .ok v => .ok ⟨v.value, v.rest, v.shorter_of_le (Nat.succ_le_of_lt shorter)⟩
termination_by (cs.length, 1)

/-- The items of a list after its bracket. -/
def items (depth : Nat) (cs : List Char) : Except Failure (Found (List Json) cs) :=
  match h : skipBlanks cs with
  | [] => .error (.here .endInList [])
  | c :: rest =>
    have shorter := length_lt_of_skipBlanks h
    if c = ']' then .ok ⟨[], rest, shorter⟩
    else
      match value depth cs with
      | .error e => .error e
      | .ok v =>
        have within := v.shorter
        match moreItems depth v.rest with
        | .error e => .error e
        | .ok vs => .ok ((vs.map (v.value :: ·)).behind within)
termination_by (cs.length, 2)

/-- The items after one that was read. -/
def moreItems (depth : Nat) (cs : List Char) : Except Failure (Found (List Json) cs) :=
  match h : skipBlanks cs with
  | [] => .error (.here .endInList [])
  | c :: rest =>
    have shorter := length_lt_of_skipBlanks h
    if c = ']' then .ok ⟨[], rest, shorter⟩
    else if c = ',' then
      match skipBlanks rest with
      | [] => .error (.here .endInValue [])
      | ']' :: after => .error (.onNext .trailingComma (']' :: after))
      | _ =>
        match value depth rest with
        | .error e => .error e
        | .ok v =>
          have within := v.shorter_of_lt shorter
          match moreItems depth v.rest with
          | .error e => .error e
          | .ok vs => .ok ((vs.map (v.value :: ·)).behind within)
    else .error (.onNext .expectedCommaOrBracket (c :: rest))
termination_by (cs.length, 2)

/-- The members of a table after its brace. -/
def members (depth : Nat) (cs : List Char) :
    Except Failure (Found (List (String × Json)) cs) :=
  match h : skipBlanks cs with
  | [] => .error (.here .endInObject [])
  | c :: rest =>
    have shorter := length_lt_of_skipBlanks h
    if c = '\x7d' then .ok ⟨[], rest, shorter⟩
    else if c = '"' then
      match member depth rest with
      | .error e => .error e
      | .ok m =>
        have within := m.shorter_of_lt shorter
        match moreMembers depth m.rest with
        | .error e => .error e
        | .ok ms => .ok ((ms.map (m.value :: ·)).behind within)
    else .error (.onNext .keyNotString (c :: rest))
termination_by (cs.length, 3)

/-- The members after one that was read. -/
def moreMembers (depth : Nat) (cs : List Char) :
    Except Failure (Found (List (String × Json)) cs) :=
  match h : skipBlanks cs with
  | [] => .error (.here .endInObject [])
  | c :: rest =>
    have shorter := length_lt_of_skipBlanks h
    if c = '\x7d' then .ok ⟨[], rest, shorter⟩
    else if c = ',' then
      match hk : skipBlanks rest with
      | [] => .error (.here .endInValue [])
      | k :: after =>
        have inKey := Nat.lt_trans (length_lt_of_skipBlanks hk) shorter
        if k = '"' then
          match member depth after with
          | .error e => .error e
          | .ok m =>
            have within := m.shorter_of_lt inKey
            match moreMembers depth m.rest with
            | .error e => .error e
            | .ok ms => .ok ((ms.map (m.value :: ·)).behind within)
        else if k = '\x7d' then .error (.onNext .trailingComma (k :: after))
        else .error (.onNext .keyNotString (k :: after))
    else .error (.onNext .expectedCommaOrBrace (c :: rest))
termination_by (cs.length, 3)

/-- A member after the opening quote of its key. -/
def member (depth : Nat) (cs : List Char) : Except Failure (Found (String × Json) cs) :=
  match stringRest cs with
  | .error e => .error e
  | .ok key =>
    match h : skipBlanks key.rest with
    | [] => .error (.here .endInObject [])
    | c :: rest =>
      have shorter := Nat.lt_trans (length_lt_of_skipBlanks h) key.shorter
      if c = ':' then
        match value depth rest with
        | .error e => .error e
        | .ok v => .ok ((v.map fun v => (String.ofList key.value, v)).behind shorter)
      else .error (.onNext .expectedColon (c :: rest))
termination_by (cs.length, 2)

end

/-- The nesting that a manifest may have. -/
def maxDepth : Nat := 127

/-- A whole text: one value and nothing but blanks around it. -/
def parseWithin (depth : Nat) (text : String) : Except Failure Json :=
  match value depth text.toList with
  | .error e => .error e
  | .ok v =>
    match skipBlanks v.rest with
    | [] => .ok v.value
    | rest => .error (.onNext .trailingCharacters rest)

def parse (text : String) : Except Failure Json := parseWithin maxDepth text

end SiteManifest.Json
