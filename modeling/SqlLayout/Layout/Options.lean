import SqlLayout.Binding
import SqlLayout.Dialect.Standard
import SqlLayout.Layout.InlineBlock

/-!
# Layout options

`Settings` are what a caller asks for; `Options` are settings that make sense, which is all that
the layout works with.
-/

namespace SqlLayout

/-- Where a comma stands that divides two lines. -/
inductive CommaStyle where
  /-- At the start of the second line. -/
  | leading
  /-- At the end of the first line. -/
  | trailing
deriving DecidableEq

namespace CommaStyle

def name : CommaStyle → Text
  | leading => "leading".toList
  | trailing => "trailing".toList

def named? (t : Text) : Option CommaStyle :=
  [leading, trailing].find? fun s => s.name == t

def ofValue? : Value → Option CommaStyle
  | .text t => named? t
  | _ => none

end CommaStyle

structure Options where
  /-- One level of indentation. -/
  unit : Text := [' ', ' ']
  /-- The length at which lines are wrapped, or 0 for none. -/
  maxLineLength : Nat := 0
  bindings : Bindings := .none
  commaStyle : CommaStyle := .leading
  /-- The length that an inline block may have. -/
  inlineLimit : Nat := InlineBlock.defaultLimit
  dialect : Dialect := .standard

/-- What a caller asks for. -/
structure Settings where
  unit : Text := [' ', ' ']
  maxLineLength : Int := 0
  bindings : Bindings := .none
  commaStyle : Value := .text CommaStyle.leading.name
  inlineLimit : Int := InlineBlock.defaultLimit

inductive SettingsFault where
  | negativeLineLength (n : Int)
  | negativeInlineLimit (n : Int)
  | unknownCommaStyle (v : Value)

def SettingsFault.message : SettingsFault → Text
  | negativeLineLength n => "max_line_length must be >= 0, got ".toList ++ Text.ofInt n
  | negativeInlineLimit n => "inline_max_length must be >= 0, got ".toList ++ Text.ofInt n
  | unknownCommaStyle v =>
    "comma_style must be 'leading' or 'trailing', got ".toList ++ v.literal

/-- The options that settings stand for in a dialect. -/
def Settings.check (s : Settings) (dialect : Dialect) : Except SettingsFault Options :=
  if s.maxLineLength < 0 then .error (.negativeLineLength s.maxLineLength)
  else if s.inlineLimit < 0 then .error (.negativeInlineLimit s.inlineLimit)
  else
    match CommaStyle.ofValue? s.commaStyle with
    | none => .error (.unknownCommaStyle s.commaStyle)
    | some commaStyle =>
      .ok
        { unit := s.unit, maxLineLength := s.maxLineLength.toNat, bindings := s.bindings,
          commaStyle, inlineLimit := s.inlineLimit.toNat, dialect }

end SqlLayout
