import SqlDump.Unicode.Blank
import SqlDump.Unicode.Alphabetic
import SqlDump.Unicode.Mark
import SqlDump.Unicode.Number
import SqlDump.Unicode.Lowercase

/-!
# Texts

A text is a list of characters, so that readers and printers are functions on its first characters
and its rest. A string literal stands for its text.

Main statements: `size_append`, sizes in UTF-8 octets add up; `after?_eq_some_iff`, a text begins
with `start` exactly when it is `start` and a rest.
-/

namespace SqlDump

/-- A decoded text. -/
abbrev Text := List Char

instance : Coe String Text := ⟨String.toList⟩

namespace Text

/-- The number of UTF-8 octets of a text. -/
def size (t : Text) : Nat := t.foldl (fun n c => n + c.utf8Size) 0

@[simp]
theorem size_nil : size [] = 0 := rfl

theorem foldl_size (n : Nat) (t : Text) :
    t.foldl (fun n c => n + c.utf8Size) n = n + size t := by
  induction t generalizing n with
  | nil => rfl
  | cons c t ih =>
    simp only [size, List.foldl_cons]
    rw [ih, ih (0 + c.utf8Size)]
    omega

@[simp]
theorem size_cons (c : Char) (t : Text) : size (c :: t) = c.utf8Size + size t := by
  rw [size, List.foldl_cons, foldl_size, Nat.zero_add]

@[simp]
theorem size_append (t u : Text) : size (t ++ u) = size t + size u := by
  rw [size, List.foldl_append, foldl_size]
  rfl

/-- The text without its leading blanks. -/
def trimStart (t : Text) : Text := t.dropWhile Unicode.isBlank

/-- The text without the characters at its end that satisfy `p`. -/
def trimEndWhile (p : Char → Bool) (t : Text) : Text := (t.reverse.dropWhile p).reverse

/-- The text without its trailing blanks. -/
def trimEnd (t : Text) : Text := trimEndWhile Unicode.isBlank t

/-- The text without blanks at either end. -/
def trim (t : Text) : Text := trimEnd (trimStart t)

/-- Whether the text holds nothing but blanks. -/
def isBlank (t : Text) : Bool := t.all Unicode.isBlank

/-- The maximal pieces without blanks: `done` holds the pieces found in reverse, `word` the open
piece in reverse. -/
def wordsFrom (done : List Text) (word : Text) : Text → List Text
  | [] => (if word.isEmpty then done else word.reverse :: done).reverse
  | c :: rest =>
    if Unicode.isBlank c then
      wordsFrom (if word.isEmpty then done else word.reverse :: done) [] rest
    else
      wordsFrom done (c :: word) rest

/-- The maximal pieces without blanks, in order. -/
def words (t : Text) : List Text := wordsFrom [] [] t

/-- The pieces between the occurrences of `sep`: `done` holds the pieces found in reverse, `piece`
the open piece in reverse. -/
def splitFrom (sep : Char) (done : List Text) (piece : Text) : Text → List Text
  | [] => (piece.reverse :: done).reverse
  | c :: rest =>
    if c = sep then splitFrom sep (piece.reverse :: done) [] rest
    else splitFrom sep done (c :: piece) rest

/-- The pieces between the occurrences of `sep`, one more than `sep` occurs. -/
def split (sep : Char) (t : Text) : List Text := splitFrom sep [] [] t

/-- The texts one after another with `sep` between neighbours. -/
def join (sep : Text) (ts : List Text) : Text := sep.intercalate ts

/-- A line without the carriage return of its ending, `line` given in reverse. -/
def closeLine (line : Text) : Text :=
  match line with
  | '\r' :: rest => rest.reverse
  | _ => line.reverse

/-- The lines of the rest of a text: `done` holds the lines found in reverse, `line` the open line
in reverse. -/
def linesFrom (done : List Text) (line : Text) : Text → List Text
  | [] => (if line.isEmpty then done else line.reverse :: done).reverse
  | '\n' :: rest => linesFrom (closeLine line :: done) [] rest
  | c :: rest => linesFrom done (c :: line) rest

/-- The lines of a text. A line ends at a line feed, or at a carriage return and a line feed; the
last may have no ending. -/
def lines (t : Text) : List Text := linesFrom [] [] t

/-- The text with every `c` replaced by `image`. -/
def replaceChar (c : Char) (image : Text) (t : Text) : Text :=
  t.flatMap fun d => if d = c then image else [d]

/-- The text with every `c` written twice. -/
def double (c : Char) (t : Text) : Text := replaceChar c [c, c] t

/-- The lower-case form of a text in full Unicode. -/
def lower (t : Text) : Text := Unicode.lowercase t

/-- The text with the letters A to Z in lower case. -/
def asciiLower (t : Text) : Text := t.map Char.toLower

/-- Equality up to the case of the letters A to Z. -/
def sameAscii (t u : Text) : Bool := asciiLower t == asciiLower u

/-- What follows `start`, if the text begins with it. -/
def after? (start : Text) (t : Text) : Option Text :=
  match start, t with
  | [], t => some t
  | _ :: _, [] => none
  | a :: start, c :: t => if a = c then after? start t else none

/-- Whether the text begins with `start`. -/
def startsWith (start : Text) (t : Text) : Bool := (after? start t).isSome

/-- What follows the first occurrence of `mark`. -/
def afterFirst? (mark : Text) : Text → Option Text
  | [] => after? mark []
  | c :: rest =>
    match after? mark (c :: rest) with
    | some tail => some tail
    | none => afterFirst? mark rest

/-- The decimal numeral of a number. -/
def ofNat (n : Nat) : Text := Nat.toDigits 10 n

/-- The text filled up with blanks on the right to `width` characters. -/
def padRight (width : Nat) (t : Text) : Text := t ++ List.replicate (width - t.length) ' '

theorem after?_append (start t : Text) : after? start (start ++ t) = some t := by
  induction start with
  | nil => simp [after?]
  | cons a start ih => simp [after?, ih]

theorem eq_append_of_after? {start t tail : Text} (h : after? start t = some tail) :
    t = start ++ tail := by
  induction start generalizing t with
  | nil => simpa [after?] using h
  | cons a start ih =>
    cases t with
    | nil => simp [after?] at h
    | cons c t =>
      by_cases hc : a = c
      · simp only [after?, hc, if_true] at h
        simp [hc, ih h]
      · simp [after?, hc] at h

theorem double_cons_self (c : Char) (t : Text) : double c (c :: t) = c :: c :: double c t := by
  simp [double, replaceChar]

theorem double_cons_of_ne {c d : Char} (h : d ≠ c) (t : Text) :
    double c (d :: t) = d :: double c t := by
  simp [double, replaceChar, h]

/-- A text begins with `start` exactly when it is `start` and a rest. -/
theorem after?_eq_some_iff {start t tail : Text} : after? start t = some tail ↔ t = start ++ tail :=
  ⟨eq_append_of_after?, fun h => h ▸ after?_append start tail⟩

theorem length_afterFirst? {mark t tail : Text} (h : afterFirst? mark t = some tail) :
    tail.length ≤ t.length := by
  induction t with
  | nil =>
    rw [afterFirst?] at h
    simp [eq_append_of_after? h]
  | cons c t ih =>
    rw [afterFirst?] at h
    split at h
    · next hm =>
      simp only [Option.some.injEq] at h
      subst h
      simp [eq_append_of_after? hm]
    · exact Nat.le_succ_of_le (ih h)

theorem dropWhile_dropWhile (p : Char → Bool) (t : Text) :
    (t.dropWhile p).dropWhile p = t.dropWhile p := by
  induction t with
  | nil => rfl
  | cons c t ih =>
    by_cases h : p c = true
    · simpa [List.dropWhile_cons, h] using ih
    · simp [h]

theorem trimStart_trimStart (t : Text) : trimStart (trimStart t) = trimStart t :=
  dropWhile_dropWhile _ t

theorem trimEnd_trimEnd (t : Text) : trimEnd (trimEnd t) = trimEnd t := by
  simp [trimEnd, trimEndWhile, dropWhile_dropWhile]

theorem trimStart_solid {c : Char} (hc : Unicode.isBlank c = false) (before t : Text) :
    trimStart (before ++ c :: t) = trimStart before ++ c :: t := by
  induction before with
  | nil => simp [trimStart, hc]
  | cons d before ih =>
    simp only [trimStart, List.cons_append, List.dropWhile_cons] at ih ⊢
    split
    · exact ih
    · rfl

theorem trimEnd_solid {c : Char} (hc : Unicode.isBlank c = false) (t behind : Text) :
    trimEnd (t ++ c :: behind) = t ++ c :: trimEnd behind := by
  have h := trimStart_solid hc behind.reverse t.reverse
  simp only [trimStart] at h
  simp [trimEnd, trimEndWhile, h]

/-- Only what stands before and behind characters that are no blanks is taken off. -/
theorem trim_between {c d : Char} (hc : Unicode.isBlank c = false) (hd : Unicode.isBlank d = false)
    (before t behind : Text) :
    trim (before ++ c :: (t ++ d :: behind)) =
      trimStart before ++ c :: (t ++ d :: trimEnd behind) := by
  have h := trimEnd_solid hd (trimStart before ++ c :: t) behind
  rw [trim, trimStart_solid hc]
  simpa using h

/-- The blanks at both ends are taken off, and nothing else. -/
theorem trim_solid {before behind : Text} {c d : Char} (hbefore : isBlank before = true)
    (hbehind : isBlank behind = true) (hc : Unicode.isBlank c = false)
    (hd : Unicode.isBlank d = false) (t : Text) :
    trim (before ++ (c :: (t ++ d :: behind))) = c :: (t ++ [d]) := by
  have hnil {t : Text} (h : isBlank t = true) : t.dropWhile Unicode.isBlank = [] := by
    have hall : (t ++ []).dropWhile Unicode.isBlank = [] :=
      List.dropWhile_append_of_pos (List.all_eq_true.mp h)
    rwa [List.append_nil] at hall
  have hstart : trimStart before = [] := hnil hbefore
  have hend : trimEnd behind = [] := by
    rw [trimEnd, trimEndWhile, hnil (by rwa [isBlank, List.all_reverse]), List.reverse_nil]
  rw [trim_between hc hd, hstart, hend, List.nil_append]

theorem mem_of_mem_trim {c : Char} {t : Text} (h : c ∈ trim t) : c ∈ t := by
  have hstart := List.mem_reverse.mp ((List.dropWhile_suffix _).subset (List.mem_reverse.mp h))
  exact (List.dropWhile_suffix _).subset hstart

end Text

end SqlDump
