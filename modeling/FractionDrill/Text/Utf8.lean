import FractionDrill.Text.Basic

/-!
# Texts as bytes

Files hold texts in UTF-8. Every text can be written, and what was written
reads back; bytes that are not valid UTF-8 stand for no text.
-/
namespace FractionDrill.Text

def toBytes (t : Text) : ByteArray := (String.ofList t).toUTF8

/-- The number of bytes in which the text is written. -/
def byteSize (t : Text) : Nat := t.foldr (fun c n => c.utf8Size + n) 0

def ofBytes? (bytes : ByteArray) : Option Text := bytes.utf8Decode?.map Array.toList

theorem ofBytes?_toBytes (t : Text) : ofBytes? (toBytes t) = some t := by
  simp [ofBytes?, toBytes, List.utf8Decode?_utf8Encode]

end FractionDrill.Text
