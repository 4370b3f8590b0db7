/-
# The pieces of a document

The first fault among the pieces of a document is what keeps JSON from having a form for it
(`Json.firstFault?_pieces`).  A document that JSON has a form for goes into a file in pieces
without a fault, and they make up its text (`Json.makes_pieces`).  Pieces that make up texts
make up the texts put together (`Json.Makes.append`), so the pieces of a list or a mapping are
told part by part: what stands before a part, then the part.
-/

import PhoneticBengali.Json.Pieces

namespace PhoneticBengali
namespace Json

/-! ### Faults -/

/-- The first fault among pieces. -/
def firstFault? (ps : List Piece) : Option FormFault :=
  ps.findSome? fun
    | .error fault => some fault
    | .ok _ => none

/-- Of two rows of pieces, the first fault is in the first one that has a fault. -/
@[simp]
theorem firstFault?_append (ps qs : List Piece) :
    firstFault? (ps ++ qs) = (firstFault? ps).or (firstFault? qs) :=
  List.findSome?_append

/-- A piece that is a text has no fault. -/
@[simp]
theorem firstFault?_cons_ok (t : Text) (ps : List Piece) :
    firstFault? (.ok t :: ps) = firstFault? ps :=
  rfl

/-- A text in front brings no fault. -/
@[simp]
theorem firstFault?_pieceBehind (front : Text) (d : Document) (ps : List Piece) :
    firstFault? (pieceBehind front d ps) = firstFault? ps := by
  unfold pieceBehind
  split <;> rfl

/-- A key in front brings its fault, if it has one. -/
theorem firstFault?_keyPiece (k : Document) (ps : List Piece) :
    firstFault? (keyPiece k :: ps) = (keyFault? k).or (firstFault? ps) := by
  rw [keyPiece]
  cases keyFault? k <;> rfl

variable {layout : Layout}

mutual

/-- **The first fault among the pieces of a document** is what keeps JSON from having a form
for it. -/
theorem firstFault?_pieces (depth : Nat) :
    ∀ d, firstFault? (pieces layout depth d) = formFault? d
  | .null => rfl
  | .bool _ => rfl
  | .int n => by
    rw [pieces, formFault?]
    cases numeralFault? n <;> rfl
  | .float _ => rfl
  | .str _ => rfl
  | .time _ => rfl
  | .bytes _ => rfl
  | .set _ => rfl
  | .list [] => rfl
  | .list (d :: rest) => by
    rw [pieces, firstFault?_append, firstFault?_itemPieces, formFault?]
    exact Option.or_none
  | .pair x y => by
    rw [pieces, firstFault?_append, firstFault?_append, firstFault?_pieceBehind,
      firstFault?_pieceBehind, firstFault?_pieces, firstFault?_pieces, formFault?]
    exact Option.or_none
  | .map [] => rfl
  | .map (e :: rest) => by
    rw [pieces, List.cons_append, firstFault?_cons_ok, firstFault?_append,
      firstFault?_entryPieces, formFault?]
    exact Option.or_none

/-- So it is for the items of a list. -/
theorem firstFault?_itemPieces (depth : Nat) (front : Text) :
    ∀ ds, firstFault? (itemPieces layout depth front ds) = itemsFault? ds
  | [] => rfl
  | d :: rest => by
    rw [itemPieces, firstFault?_append, firstFault?_pieceBehind, firstFault?_pieces,
      firstFault?_itemPieces, itemsFault?]

/-- So it is for the entries of a mapping. -/
theorem firstFault?_entryPieces (depth : Nat) (front : Text) :
    ∀ es, firstFault? (entryPieces layout depth front es) = entriesFault? es
  | [] => rfl
  | (k, v) :: rest => by
    rw [entryPieces, List.cons_append, firstFault?_cons_ok, List.cons_append,
      firstFault?_keyPiece, List.cons_append, firstFault?_cons_ok, firstFault?_append,
      firstFault?_pieces, firstFault?_entryPieces, entriesFault?]

end

/-! ### Texts -/

/-- Pieces without a fault that make up a text. -/
def Makes (ps : List Piece) (t : Text) : Prop :=
  ∃ ts : List Text, ps = ts.map .ok ∧ ts.flatten = t

namespace Makes

variable {ps qs : List Piece} {t u : Text}

/-- One piece makes up its text. -/
theorem single (t : Text) : Makes [.ok t] t :=
  ⟨[t], rfl, List.append_nil t⟩

/-- Pieces behind others make up the text behind theirs. -/
theorem append (h : Makes ps t) (h' : Makes qs u) : Makes (ps ++ qs) (t ++ u) := by
  obtain ⟨ts, rfl, rfl⟩ := h
  obtain ⟨us, rfl, rfl⟩ := h'
  exact ⟨ts ++ us, List.map_append.symm, List.flatten_append⟩

/-- Pieces behind a text make up the text and theirs. -/
theorem behind (front : Text) (d : Document) (h : Makes ps t) :
    Makes (pieceBehind front d ps) (front ++ t) := by
  unfold pieceBehind
  split
  -- a document that is no collection shares its piece with the text in front
  iterate 5
    · obtain ⟨ts, hts, rfl⟩ := h
      obtain ⟨u, rfl, hu⟩ := List.map_eq_singleton_iff.1 hts.symm
      obtain rfl := Except.ok.inj hu
      rw [List.flatten_singleton]
      exact single _
  · exact (single front).append h

end Makes

/-- The text of parts between brackets. -/
theorem enclose_cons (depth : Nat) (opening closing : CodePoint) (part : Text)
    (parts : List Text) :
    enclose layout depth opening closing (part :: parts) =
      [opening] ++ layout.start (depth + 1) ++
        (layout.separator (depth + 1)).intercalate (part :: parts) ++
          (layout.start depth ++ [closing]) := by
  rw [enclose, List.isEmpty_cons, if_neg Bool.false_ne_true, List.append_assoc]

/-- A key without a fault is one piece. -/
theorem keyPiece_eq_ok {k : Document} (h : keyFault? k = none) :
    keyPiece k = .ok (string (key k)) := by
  rw [keyPiece, h]

mutual

/-- **The pieces of a document make up its text**, if JSON has a form for it. -/
theorem makes_pieces (depth : Nat) :
    ∀ d, formFault? d = none → Makes (pieces layout depth d) (write layout depth d)
  | .null => fun _ => .single _
  | .bool _ => fun _ => .single _
  | .int n => fun h => by
    have hshort : numeralFault? n = none := h
    rw [pieces, hshort]
    exact .single _
  | .float _ => fun _ => .single _
  | .str _ => fun _ => .single _
  | .time _ => nofun
  | .bytes _ => nofun
  | .set _ => nofun
  | .list [] => fun _ => .single _
  | .list (d :: rest) => fun h => by
    have hitems := makes_itemPieces (depth + 1) ("[" ++ layout.start (depth + 1)) (d :: rest)
      (List.cons_ne_nil d rest) h
    rw [writeItems] at hitems
    rw [pieces, write, writeItems, enclose_cons]
    exact hitems.append ((Makes.single _).append (.single _))
  | .pair x y => fun h => by
    obtain ⟨hx, hy⟩ := Option.or_eq_none_iff.1 h
    have hfirst := (makes_pieces (depth + 1) x hx).behind ("[" ++ layout.start (depth + 1)) x
    have hsecond := (makes_pieces (depth + 1) y hy).behind (layout.separator (depth + 1)) y
    rw [pieces, write, enclose_cons, List.intercalate_cons_cons, List.intercalate_singleton,
      List.append_assoc (write layout (depth + 1) x), ← List.append_assoc ([_] ++ _)]
    exact (hfirst.append hsecond).append ((Makes.single _).append (.single _))
  | .map [] => fun _ => .single _
  | .map (e :: rest) => fun h => by
    have hentries := makes_entryPieces (depth + 1) (layout.start (depth + 1)) (e :: rest)
      (List.cons_ne_nil e rest) h
    rw [writeEntries] at hentries
    rw [pieces, write, writeEntries, enclose_cons, List.append_assoc [_]]
    exact ((Makes.single "\x7b").append hentries).append ((Makes.single _).append (.single _))

/-- The pieces of the items of a list make their text. -/
theorem makes_itemPieces (depth : Nat) (front : Text) :
    ∀ ds, ds ≠ [] → itemsFault? ds = none → Makes (itemPieces layout depth front ds)
      (front ++ (layout.separator depth).intercalate (writeItems layout depth ds))
  | [] => fun hne => absurd rfl hne
  | d :: rest => fun _ h => by
    obtain ⟨hd, hrest⟩ := Option.or_eq_none_iff.1 h
    have hfirst := (makes_pieces depth d hd).behind front d
    have hlater := makes_itemPieces depth (layout.separator depth) rest
    rw [itemPieces, writeItems]
    cases rest with
    | nil =>
      rw [itemPieces, List.append_nil, writeItems, List.intercalate_singleton]
      exact hfirst
    | cons e rest =>
      have hlater := hlater (List.cons_ne_nil e rest) hrest
      rw [writeItems] at hlater ⊢
      rw [List.intercalate_cons_cons, List.append_assoc, ← List.append_assoc]
      exact hfirst.append hlater

/-- The pieces of the entries of a mapping make their text. -/
theorem makes_entryPieces (depth : Nat) (front : Text) :
    ∀ es, es ≠ [] → entriesFault? es = none → Makes (entryPieces layout depth front es)
      (front ++ (layout.separator depth).intercalate (writeEntries layout depth es))
  | [] => fun hne => absurd rfl hne
  | (k, v) :: rest => fun _ h => by
    obtain ⟨hk, hlater⟩ := Option.or_eq_none_iff.1 h
    obtain ⟨hv, hrest⟩ := Option.or_eq_none_iff.1 hlater
    have hkey := ((Makes.single front).append (.single (string (key k)))).append (.single ": ")
    have hentry := hkey.append (makes_pieces depth v hv)
    have hothers := makes_entryPieces depth (layout.separator depth) rest
    rw [entryPieces, keyPiece_eq_ok hk, writeEntries]
    cases rest with
    | nil =>
      rw [entryPieces, List.append_nil, writeEntries, List.intercalate_singleton]
      simpa using hentry
    | cons e rest =>
      have hothers := hothers (List.cons_ne_nil e rest) hrest
      rw [writeEntries] at hothers ⊢
      rw [List.intercalate_cons_cons]
      simpa using hentry.append hothers

end

end Json
end PhoneticBengali
