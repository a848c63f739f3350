import SqlDump.Segment.Lexer

/-!
# Segments

A dump cut into statements, before any of them is read. Blanks between statements belong to none.
`Segment.all` cuts an input held as a whole, `Reader.next` one that arrives in chunks.

Main statement: `Segment.ofPiece_octets`, the blanks taken off a piece and the segment are the
piece.
-/

namespace SqlDump

/-- A statement as cut from the input. -/
structure Segment where
  /-- The octets from the first that is no blank, with the ending. -/
  octets : Octets
  /-- The position among the statements, from zero. -/
  index : Nat
  /-- The position of the first octet in the input. -/
  offset : Nat
  /-- False when the input ended inside the statement. -/
  terminated : Bool
  deriving DecidableEq, Repr

namespace Segment

/-- The position behind the last octet. -/
def stop (s : Segment) : Nat := s.offset + s.octets.length

/-- The segment of a piece of input that begins at `offset`, without its leading blanks. -/
def ofPiece (piece : Octets) (index offset : Nat) (terminated : Bool) : Segment where
  octets := piece.dropWhile Octets.isBlank
  index := index
  offset := offset + (piece.takeWhile Octets.isBlank).length
  terminated := terminated

theorem ofPiece_octets (piece : Octets) (index offset : Nat) (terminated : Bool) :
    piece.takeWhile Octets.isBlank ++ (ofPiece piece index offset terminated).octets = piece :=
  List.takeWhile_append_dropWhile

theorem ofPiece_stop (piece : Octets) (index offset : Nat) (terminated : Bool) :
    (ofPiece piece index offset terminated).stop = offset + piece.length := by
  have h := congrArg List.length (ofPiece_octets piece index offset terminated)
  rw [List.length_append] at h
  simp only [stop, ofPiece] at h ⊢
  omega

/-- The segments of the input from `offset` on. Blanks at the end make none. -/
def fromOffset (index offset : Nat) (bs : Octets) : List Segment :=
  match bs with
  | [] => []
  | b :: bs =>
    let c := Scan.start.cut [] (b :: bs)
    if c.piece.all Octets.isBlank then []
    else
      ofPiece c.piece index offset c.terminated ::
        fromOffset (index + 1) (offset + c.piece.length) c.rest
termination_by bs.length
decreasing_by exact Scan.cut_rest_lt _ _ _ _

/-- The segments of a whole input. -/
def all (bs : Octets) : List Segment := fromOffset 0 0 bs

/-- The text of a segment, and how its octets were read. -/
def decode (s : Segment) : Text × Encoding := Encoding.decode s.octets

end Segment

/-- Input that arrives in chunks, and how much of it was consumed. -/
structure Reader where
  /-- What is left, the rest of the open chunk first. -/
  chunks : List Octets
  position : Nat
  index : Nat
  deriving Repr

namespace Reader

/-- The input in chunks of `size` octets. Chunks of no octets hold nothing. -/
def chunksOf (size : Nat) (bs : Octets) : List Octets :=
  if size = 0 then []
  else
    match bs with
    | [] => []
    | b :: bs => (b :: bs).take size :: chunksOf size ((b :: bs).drop size)
termination_by bs.length
decreasing_by
  simp only [List.length_drop, List.length_cons]
  omega

/-- The size of chunks for an input of a given size: larger chunks for more than a gibibyte. -/
def chunkSize (inputSize : Nat) : Nat := if 1073741824 < inputSize then 262144 else 65536

/-- A reader before the first octet. -/
def ofOctets (size : Nat) (bs : Octets) : Reader := ⟨chunksOf size bs, 0, 0⟩

/-- What a chunk did to an open statement. -/
inductive Progress where
  /-- The statement ended and left the rest of the chunk. -/
  | ended (piece rest : Octets)
  /-- The chunk is used up; the lexer and the octets taken, in reverse. -/
  | pending (lexer : Lexer) (taken : Octets)

/-- The lexer over one chunk. Runs of octets that leave it as it is are passed over at once. -/
def scanChunk (l : Lexer) (taken chunk : Octets) : Progress :=
  let taken := (chunk.takeWhile l.passes).reverse ++ taken
  match _h : chunk.dropWhile l.passes with
  | [] => .pending l taken
  | b :: rest =>
    match l.step b with
    | none => .ended (b :: taken).reverse rest
    | some m => scanChunk m (b :: taken) rest
termination_by chunk.length
decreasing_by
  have hle := (List.dropWhile_suffix l.passes (l := chunk)).length_le
  rw [_h, List.length_cons] at hle
  omega

/-- Why a reader stopped taking octets. -/
inductive Stop where
  /-- The statement ended and left the chunks. -/
  | ended (piece : Octets) (chunks : List Octets)
  /-- There is no more input; what was taken and the lexer behind it. -/
  | exhausted (piece : Octets) (lexer : Lexer)

/-- The lexer over the chunks, up to the end of a statement or of the input. -/
def scanChunks (l : Lexer) (taken : Octets) : List Octets → Stop
  | [] => .exhausted taken.reverse l
  | chunk :: chunks =>
    match scanChunk l taken chunk with
    | .ended piece rest => .ended piece (rest :: chunks)
    | .pending l taken => scanChunks l taken chunks

/-- The next segment, if there is one, and the reader behind it. Only blanks at the end of the
input make none. -/
def next (r : Reader) : Option Segment × Reader :=
  match scanChunks {} [] r.chunks with
  | .ended piece chunks =>
    (some (.ofPiece piece r.index r.position true),
      ⟨chunks, r.position + piece.length, r.index + 1⟩)
  | .exhausted piece l =>
    if piece.all Octets.isBlank then (none, ⟨[], r.position + piece.length, r.index⟩)
    else
      (some (.ofPiece piece r.index r.position l.isComplete),
        ⟨[], r.position + piece.length, r.index + 1⟩)

end Reader

end SqlDump
