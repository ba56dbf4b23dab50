import WordMachine.Pattern.Support
import WordMachine.Text.Parts

/-!
# Log filters

A filter is a list of directives separated by commas.  A directive is a level,
or a target, a span in brackets, or both, followed by `=` and a level if need
be; a span may name a field in braces, with a value for it.  Which messages a
filter lets through does not concern the machine; only whether it is one does.

Places in a directive are counted in bytes, from the first character that is no
blank.  The parts between them are cut from the directive as it stands, so
blanks before it move every part.
-/

namespace WordMachine

namespace LogFilter

inductive Problem where
  | badDirective
  | badLevel
  | badField (problem : Pattern.Problem)
  /-- A part would begin or end inside a character. -/
  | cutCharacter
deriving DecidableEq, Repr

namespace Problem

def message : Problem → String
  | badDirective => "invalid filter directive"
  | badLevel =>
    "error parsing level filter: expected one of \"off\", \"error\", \"warn\", \"info\", " ++
      "\"debug\", \"trace\", or a number 0-5"
  | badField problem => "invalid field filter: " ++ problem.message
  | cutCharacter => "a part of the directive ends inside a character"

end Problem

/-! ## Levels -/

def levels : List String := ["off", "error", "warn", "info", "debug", "trace", ""]

def withoutPlus : List Char → List Char
  | '+' :: cs => cs
  | cs => cs

/-- Levels have names, in any case, and numbers. -/
def isLevel (cs : List Char) : Bool :=
  let digits := withoutPlus cs
  levels.contains (String.ofList (cs.map Char.toLower)) ||
    (!digits.isEmpty && digits.all Char.isDigit &&
      (digits.foldl (fun n c ↦ n * 10 + (c.toNat - '0'.toNat)) 0) ≤ 5)

def checkLevel (cs : List Char) : Except Problem Unit :=
  if isLevel cs then .ok () else .error .badLevel

/-! ## Fields -/

def withoutSign : List Char → List Char
  | '+' :: cs => cs
  | '-' :: cs => cs
  | cs => cs

/-- Nothing, or a sign or none and digits behind an `e`. -/
def isExponent : List Char → Bool
  | [] => true
  | c :: cs =>
    let digits := withoutSign cs
    (c = 'e' || c = 'E') && !digits.isEmpty && digits.all Char.isDigit

/-- Digits on at least one side of a point, and an exponent if need be. -/
def isDecimal (cs : List Char) : Bool :=
  let whole := cs.takeWhile Char.isDigit
  match cs.dropWhile Char.isDigit with
  | '.' :: cs =>
    !(whole.isEmpty && (cs.takeWhile Char.isDigit).isEmpty) &&
      isExponent (cs.dropWhile Char.isDigit)
  | cs => !whole.isEmpty && isExponent cs

def isNumber (cs : List Char) : Bool :=
  let unsigned := withoutSign cs
  isDecimal unsigned ||
    ["inf", "infinity", "nan"].contains (String.ofList (unsigned.map Char.toLower))

/-- A field has a name and may have a value, which is a number or a pattern. -/
def checkField (cs : List Char) : Except Problem Unit :=
  match Text.splitAt '=' cs with
  | _ :: value :: _ =>
    if isNumber value then .ok ()
    else
      match Pattern.problem? value with
      | some problem => .error (.badField problem)
      | none => .ok ()
  | _ => .ok ()

/-! ## Directives -/

/-- Where reading stands in a directive, with the place at which the current
part began. -/
inductive State where
  | start
  | target
  | span (start : Nat)
  | field (start : Nat)
  | fieldsEnd
  | spanEnd
  | level (start : Nat)
deriving DecidableEq, Repr

def cut (directive : List Char) (start finish : Nat) : Except Problem (List Char) :=
  match Text.bytesBetween start finish directive with
  | some part => .ok part
  | none => .error .cutCharacter

def beginsTarget (c : Char) : Bool :=
  c = '-' || c = ':' || c = '_' || Text.isLetter c || Text.isNumeral c

/-- The character `c` at a place of a directive. -/
def step (directive : List Char) (place : Nat) (c : Char) : State → Except Problem State
  | .start =>
    if c = '[' then .ok (.span (place + 1))
    else if beginsTarget c then .ok .target
    else .error .badDirective
  | .target =>
    if c = '=' then do
      let _ ← cut directive 0 place
      return .level (place + 1)
    else if c = '[' then do
      let _ ← cut directive 0 place
      return .span (place + 1)
    else .ok .target
  | .span start =>
    if c = ']' then do
      let _ ← cut directive start place
      return .spanEnd
    else if c = '\x7b' then do
      let _ ← cut directive start place
      return .field (place + 1)
    else .ok (.span start)
  | .field start =>
    if c = '\x7d' then do
      let field ← cut directive start place
      if field.isEmpty then .error .badDirective
      checkField field
      return .fieldsEnd
    else .ok (.field start)
  | .fieldsEnd => if c = ']' then .ok .spanEnd else .error .badDirective
  | .spanEnd => if c = '=' then .ok (.level (place + 1)) else .error .badDirective
  | .level start => .ok (.level start)

def run (directive : List Char) (place : Nat) (state : State) : List Char → Except Problem State
  | [] => .ok state
  | c :: cs => do
    let state ← step directive place c state
    run directive (place + c.utf8Size) state cs

/-- The end of a directive. -/
def finish (directive : List Char) : State → Except Problem Unit
  | .target => .ok ()
  | .spanEnd => .ok ()
  | .level start =>
    match Text.dropBytes start directive with
    | some level => checkLevel level
    | none => .error .cutCharacter
  | _ => .error .badDirective

def checkDirective (directive : List Char) : Except Problem Unit := do
  finish directive (← run directive 0 .start (Text.trimmedChars directive))

/-! ## Filters -/

def directives (filter : String) : List (List Char) :=
  (Text.splitAt ',' filter.toList).filter fun directive ↦ !directive.isEmpty

/-- The first problem of a filter. -/
def problem? (filter : String) : Option Problem :=
  (directives filter).findSome? fun directive ↦
    match checkDirective directive with
    | .ok () => none
    | .error problem => some problem

/-- The directives of a filter that are passed over when it is used, with their
problems, or nothing if a character would be cut. -/
def ignored? (filter : String) : Option (List (String × Problem)) :=
  (directives filter).foldr (fun directive others ↦
    match checkDirective directive with
    | .ok () => others
    | .error .cutCharacter => none
    | .error problem => others.map ((String.ofList directive, problem) :: ·)) (some [])

end LogFilter

end WordMachine
