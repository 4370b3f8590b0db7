/-
# JSON piece by piece

A document goes into a file in pieces, so that a fault finds the pieces before it
already written.  The pieces are these:

| part | pieces |
| --- | --- |
| no collection | one |
| item of a list | one with what stands before it, if it is no collection |
| bracket that closes a list | one, and one for the line break before it |
| brace | one, and one for the line break behind or before it |
| entry of a mapping | the separator, the key, the colon, the value |

Without a fault the pieces make up the text of the document.
-/

import PhoneticBengali.Json.Printer

namespace PhoneticBengali
namespace Json

/-- A piece, or what is wrong with it. -/
abbrev Piece := Except FormFault Text

/-- Pieces of a document behind a text.  The text is in one piece with a document
that is no collection. -/
def pieceBehind (front : Text) : Document → List Piece → List Piece
  | .null, [.ok t] | .bool _, [.ok t] | .int _, [.ok t] | .float _, [.ok t] | .str _, [.ok t] =>
    [.ok (front ++ t)]
  | _, pieces => .ok front :: pieces

/-- A key in one piece. -/
def keyPiece (k : Document) : Piece :=
  match keyFault? k with
  | some fault => .error fault
  | none => .ok (string (key k))

mutual

/-- A document at a depth, in pieces. -/
def pieces (layout : Layout) (depth : Nat) : Document → List Piece
  | .int n =>
    match numeralFault? n with
    | some fault => [.error fault]
    | none => [.ok (Numeral.ofInt n)]
  | .time x => [.error (.value x.kind)]
  | .bytes _ => [.error (.value "bytes")]
  | .set _ => [.error (.value "set")]
  | .list [] => [.ok "[]"]
  | .list (d :: rest) =>
    itemPieces layout (depth + 1) ("[" ++ layout.start (depth + 1)) (d :: rest) ++
      [.ok (layout.start depth), .ok "]"]
  | .pair x y =>
    pieceBehind ("[" ++ layout.start (depth + 1)) x (pieces layout (depth + 1) x) ++
      pieceBehind (layout.separator (depth + 1)) y (pieces layout (depth + 1) y) ++
      [.ok (layout.start depth), .ok "]"]
  | .map [] => [.ok "\x7b\x7d"]
  | .map (e :: rest) =>
    .ok "\x7b" :: entryPieces layout (depth + 1) (layout.start (depth + 1)) (e :: rest) ++
      [.ok (layout.start depth), .ok "\x7d"]
  | .null => [.ok "null"]
  | .bool b => [.ok (if b then "true" else "false")]
  | .float x => [.ok (float x)]
  | .str s => [.ok (string s)]

/-- Each item at a depth, the first of them behind `front`. -/
def itemPieces (layout : Layout) (depth : Nat) (front : Text) : List Document → List Piece
  | [] => []
  | d :: rest =>
    pieceBehind front d (pieces layout depth d) ++
      itemPieces layout depth (layout.separator depth) rest

/-- Each entry at a depth, the first of them behind `front`. -/
def entryPieces (layout : Layout) (depth : Nat) (front : Text) :
    List (Document × Document) → List Piece
  | [] => []
  | (k, v) :: rest =>
    .ok front :: keyPiece k :: .ok ": " :: pieces layout depth v ++
      entryPieces layout depth (layout.separator depth) rest

end

end Json
end PhoneticBengali
