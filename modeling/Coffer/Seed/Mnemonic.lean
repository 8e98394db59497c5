import Coffer.Failure
import Coffer.Text.Blank
import Coffer.Text.Decomposition
import Coffer.Seed.Pbkdf2

-- The seed of a mnemonic phrase. The phrase is decomposed and its words are
-- joined by single spaces; the passphrase goes into the salt.

namespace Coffer.Mnemonic

def seedLength : Nat := 64

def iterations : Nat := 2048

def normalize (phrase : String) : List Char :=
  [' '].intercalate (Text.blankSeparated (Text.decompose phrase.toList))

def salt (passphrase : String) : List Char :=
  Text.decompose ("mnemonic" ++ passphrase).toList

def seed (phrase passphrase : String) : Except Failure Bytes :=
  let words := normalize phrase
  if words.isEmpty then .error (.unusable .emptyMnemonic)
  else
    .ok (Pbkdf2.derive (Utf8.encodeChars words) (Utf8.encodeChars (salt passphrase)) iterations
      seedLength)

end Coffer.Mnemonic
