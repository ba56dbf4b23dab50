import WordMachine.Text.Hex
import WordMachine.Word.Basic

/-!
# Words as text

A word is written as `0x` and its shortest lower-case digits.
-/

namespace WordMachine

namespace Word

def hex (w : Word) : String := "0x" ++ Hex.ofNat w.toNat

/-- Words from the first to the last, separated by a comma and a blank. -/
def hexList (ws : List Word) : String := ", ".intercalate (ws.map hex)

end Word

end WordMachine
