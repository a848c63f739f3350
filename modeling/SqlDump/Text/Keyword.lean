import SqlDump.Text.Basic

/-!
# Keywords

Readers of keywords and of the blanks between them. A reader takes a text and answers the rest of
it, or nothing where the text begins otherwise. Letters are compared by simple case folding, under
which the long s is an s and the Kelvin sign a k.
-/

namespace SqlDump.Text

/-- The lower-case letter that `c` stands for in a keyword, and otherwise `c` itself. -/
def foldCase (c : Char) : Char :=
  if c.toNat == 0x17F then 's' else if c.toNat == 0x212A then 'k' else c.toLower

/-- Whether `c` belongs to a word: letters, marks, decimal digits, connectors such as `_`, and the
two joiners. -/
def isWordChar (c : Char) : Bool :=
  Unicode.isAlphabetic c || Unicode.isDigit c || c == '_' || Unicode.isMark c ||
    Unicode.Ranges.mem
      [(0x200C, 0x200D), (0x203F, 0x2040), (0x2054, 0x2054), (0xFE33, 0xFE34), (0xFE4D, 0xFE4F),
        (0xFF3F, 0xFF3F)] c

/-- Whether a word that ends here is not continued by the text. -/
def endsWord (t : Text) : Bool :=
  match t with
  | [] => true
  | c :: _ => !isWordChar c

/-- What follows the keyword `word`, which is given in lower case. -/
def keyword? (word : Text) (t : Text) : Option Text :=
  match word, t with
  | [], t => some t
  | _ :: _, [] => none
  | a :: word, c :: t => if foldCase c = a then keyword? word t else none

/-- What follows the first of the keywords that the text begins with. -/
def anyKeyword? (words : List Text) (t : Text) : Option Text :=
  words.findSome? fun word => keyword? word t

/-- What follows the keyword where no word character comes next. -/
def wholeKeyword? (word : Text) (t : Text) : Option Text :=
  (keyword? word t).filter endsWord

/-- What follows one or more blanks. -/
def blanks? (t : Text) : Option Text :=
  match t with
  | [] => none
  | c :: rest => if Unicode.isBlank c then some (trimStart rest) else none

/-- What follows a keyword and the blanks behind it. -/
def keywordBlanks? (word : Text) (t : Text) : Option Text :=
  (keyword? word t).bind blanks?

/-- What follows the reader's part of the text, or the text itself where the reader has none. -/
def optionally (reader : Text → Option Text) (t : Text) : Text :=
  (reader t).getD t

/-- What follows two keywords with blanks between them. -/
def keywordPair? (first second : Text) (t : Text) : Option Text :=
  (keywordBlanks? first t).bind (keyword? second)

end SqlDump.Text
