/-
  Files as they are found when a command runs.
-/
namespace TemplateExpr

/-- Why a file or the standard input gives no text. -/
inductive FileFault where
  | missing
  /-- Its bytes are not UTF-8. -/
  | notText
  /-- Any other failure, in the words of the system. -/
  | other (message : String)
deriving DecidableEq, Repr, Inhabited

def FileFault.message : FileFault → String
  | missing => "No such file or directory (os error 2)"
  | notText => "stream did not contain valid UTF-8"
  | other message => message

/-- The content of each file by its path. -/
abbrev Files := String → Except FileFault String

/-- The text that the bytes are in UTF-8. -/
def textOfBytes (bytes : ByteArray) : Except FileFault String :=
  match String.fromUTF8? bytes with
  | some text => .ok text
  | none => .error .notText

end TemplateExpr
