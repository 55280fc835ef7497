import FileMagic.Text.Blank

/-! A description is made of messages with a space between them, except before a message that
starts with a backslash and a b: that mark is left out and the rest attached to what comes
before. Empty messages count for nothing. -/

namespace FileMagic.Description

/-- The mark of a message that is attached without a space. -/
def mark : Text := ['\\', 'b']

/-- A description with one more message. -/
def append (description message : Text) : Text :=
  if message.isEmpty then description
  else if mark.isPrefixOf message then description ++ message.drop mark.length
  else if description.isEmpty then message
  else description ++ [' '] ++ message

def ofMessages (messages : List Text) : Text := (messages.foldl append []).strip

/-- What is said of content that no rule describes. -/
def fallback : Text := "data".toList

end FileMagic.Description
