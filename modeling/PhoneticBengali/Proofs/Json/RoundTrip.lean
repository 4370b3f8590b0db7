/-
# Reading what was written as JSON

A JSON value (`Document.IsPlain`) is read from its own text, on one line or indented with
blanks (`Json.decode_encode`), if JSON has a form for it: no integer in it has more digits
than are converted.

A text spells a document if the document is read from it whatever comes behind, unless a
number would go on there (`Json.Spells`).  A list or a mapping is spelled if each of its
parts is; the reader's bound is never met, since every part is shorter than the whole.
-/

import Mathlib.Tactic.IntervalCases
import PhoneticBengali.Document.Inline
import PhoneticBengali.Proofs.Json.Numbers
import PhoneticBengali.Proofs.Json.Strings

namespace PhoneticBengali

namespace Json

/-! ### Blanks -/

/-- A character between the parts of a document. -/
def IsBlankChar (c : CodePoint) : Prop :=
  c = ' ' ∨ c = '\t' ∨ c = '\n' ∨ c = '\r'

/-- A text of blanks. -/
def IsBlank (t : Text) : Prop :=
  ∀ c ∈ t, IsBlankChar c

/-- Blanks in front are skipped. -/
theorem skipBlanks_append {w : Text} (h : IsBlank w) (t : Text) :
    skipBlanks (w ++ t) = skipBlanks t := by
  induction w with
  | nil => rfl
  | cons c w ih =>
    have hw := ih fun d hd => h d (List.mem_cons_of_mem c hd)
    rw [List.cons_append, skipBlanks]
    exact (if_pos (h c (List.mem_cons_self ..))).trans hw

/-- Anything but a blank is not skipped. -/
theorem skipBlanks_cons {c : CodePoint} (h : ¬ IsBlankChar c) (t : Text) :
    skipBlanks (c :: t) = c :: t := by
  rw [skipBlanks]
  exact if_neg h

/-- Nothing is left to skip behind skipped blanks. -/
theorem skipBlanks_skipBlanks (t : Text) : skipBlanks (skipBlanks t) = skipBlanks t := by
  induction t with
  | nil => rfl
  | cons c t ih =>
    rw [skipBlanks]
    split
    · exact ih
    · rename_i hc
      exact skipBlanks_cons hc t

/-- What follows a string follows its closing quote. -/
theorem string_append (k t : Text) :
    string k ++ t = ('"' : CodePoint) :: (k.flatMap escapeChar ++ ('"' : CodePoint) :: t) := by
  rw [string, List.append_assoc, List.append_assoc]
  rfl

/-- Blanks in front of a value do not matter. -/
theorem value?_skipBlanks (fuel : Nat) (t : Text) : value? fuel (skipBlanks t) = value? fuel t := by
  cases fuel with
  | zero => rfl
  | succ fuel => rw [value?, skipBlanks_skipBlanks, value?]

/-- Blanks in front of an item do not matter. -/
theorem items?_skipBlanks (fuel : Nat) (t : Text) : items? fuel (skipBlanks t) = items? fuel t := by
  cases fuel with
  | zero => rfl
  | succ fuel => rw [items?, value?_skipBlanks, items?]

/-- Blanks in front of an entry do not matter. -/
theorem entries?_skipBlanks (fuel : Nat) (t : Text) :
    entries? fuel (skipBlanks t) = entries? fuel t := by
  cases fuel with
  | zero => rfl
  | succ fuel => rw [entries?, skipBlanks_skipBlanks, entries?]

/-! ### Values -/

/-- A text is read as a document, whatever comes behind it, unless a number would go on
there. -/
def Spells (t : Text) (d : Document) : Prop :=
  ∀ fuel rest, t.length < fuel → Ends rest → value? fuel (t ++ rest) = some (d, rest)

/-- **A text that spells a document is that document.** -/
theorem decode_of_spells {t : Text} {d : Document} (h : Spells t d) : decode t = some d := by
  have hread := h (t.length + 1) [] (Nat.lt_succ_self _) nofun
  rw [List.append_nil] at hread
  rw [decode, hread]
  rfl

/-- Nothing is read back. -/
theorem spells_null : Spells "null" .null := by
  intro fuel rest hfuel _
  obtain ⟨fuel, rfl⟩ := Nat.exists_eq_add_one_of_ne_zero (Nat.ne_zero_of_lt hfuel)
  rfl

/-- Truth values are read back. -/
theorem spells_bool (b : Bool) :
    Spells (if b then "true" else "false") (.bool b) := by
  intro fuel rest hfuel _
  obtain ⟨fuel, rfl⟩ := Nat.exists_eq_add_one_of_ne_zero (Nat.ne_zero_of_lt hfuel)
  cases b <;> rfl

/-- What begins with a minus sign is a number. -/
theorem value?_minus (fuel : Nat) (t : Text) :
    value? (fuel + 1) (('-' : CodePoint) :: t) = number? (('-' : CodePoint) :: t) :=
  rfl

/-- What begins with digits is a number. -/
theorem value?_whole {ds : List Nat} (h : Numeral.IsWhole ds) (fuel : Nat) (t : Text) :
    value? (fuel + 1) (ds.map Numeral.digit ++ t) = number? (ds.map Numeral.digit ++ t) := by
  obtain ⟨d, hd, later, rfl⟩ := h.exists_cons
  interval_cases d <;> rfl

/-- An integer of no more digits than are converted is spelled. -/
theorem spells_int {n : Int} (hshort : Numeral.isLong n = false) :
    Spells (Numeral.ofInt n) (.int n) := by
  intro fuel rest hfuel hrest
  obtain ⟨fuel, rfl⟩ := Nat.exists_eq_add_one_of_ne_zero (Nat.ne_zero_of_lt hfuel)
  rw [← number?_ofInt hshort hrest]
  cases n with
  | ofNat n =>
    obtain ⟨ds, hds, hwhole, -⟩ := Numeral.ofNat_eq n
    rw [Numeral.ofInt, hds]
    exact value?_whole hwhole fuel _
  | negSucc n => exact value?_minus fuel _

/-- So are numbers with a point, by their shortest spelling. -/
theorem spells_float (x : Binary64) : Spells (float x) (.float x) := by
  intro fuel rest hfuel hrest
  obtain ⟨fuel, rfl⟩ := Nat.exists_eq_add_one_of_ne_zero (Nat.ne_zero_of_lt hfuel)
  cases x with
  | undefined => rfl
  | signed negative size =>
    rw [← number?_float negative size hrest]
    by_cases hinfinite : size = .infinity
    · subst hinfinite
      cases negative <;> rfl
    · obtain ⟨s, hs, -, htext⟩ := exists_float_eq negative hinfinite
      have hpositive : value? (fuel + 1) (s.text ++ rest) = number? (s.text ++ rest) := by
        rw [Decimal.Spelling.text, List.append_assoc]
        exact value?_whole hs.whole fuel _
      rw [htext]
      cases negative with
      | true => exact value?_minus fuel _
      | false => exact hpositive

/-- Every string is spelled. -/
theorem spells_string (s : Text) : Spells (string s) (.str s) := by
  intro fuel rest hfuel _
  obtain ⟨fuel, rfl⟩ := Nat.exists_eq_add_one_of_ne_zero (Nat.ne_zero_of_lt hfuel)
  have hvalue (t : Text) : value? (fuel + 1) (('"' : CodePoint) :: t) =
      (stringTail t).map fun r => (.str r.1, r.2) := rfl
  rw [string_append, hvalue, stringTail_escaped, Option.map_some]

/-! ### Parts -/

section Steps

variable {fuel : Nat} {t u rest : Text} {d : Document}

/-- An item in front of the bracket is the last one. -/
theorem items?_last (hvalue : value? fuel t = some (d, u))
    (hu : skipBlanks u = (']' : CodePoint) :: rest) :
    items? (fuel + 1) t = some ([d], rest) := by
  rw [items?, hvalue]
  simp only [Option.bind_eq_bind, Option.bind_some, hu]
  rfl

/-- In front of a comma, others follow. -/
theorem items?_more (hvalue : value? fuel t = some (d, u))
    (hu : skipBlanks u = (',' : CodePoint) :: rest) :
    items? (fuel + 1) t = (items? fuel rest).map fun r => (d :: r.1, r.2) := by
  rw [items?, hvalue]
  simp only [Option.bind_eq_bind, Option.bind_some, hu]
  cases items? fuel rest <;> rfl

/-- A string has no blanks in front. -/
theorem skipBlanks_string (k t : Text) :
    skipBlanks (string k ++ t) =
      ('"' : CodePoint) :: (k.flatMap escapeChar ++ ('"' : CodePoint) :: t) := by
  rw [string_append]
  exact skipBlanks_cons (by simp [IsBlankChar]) _

/-- A colon has no blanks in front. -/
theorem skipBlanks_colon (t : Text) :
    skipBlanks ((':' : CodePoint) :: t) = (':' : CodePoint) :: t :=
  skipBlanks_cons (by simp [IsBlankChar]) t

/-- An entry in front of the bracket is the last one. -/
theorem entries?_last (k : Text) (hvalue : value? fuel t = some (d, u))
    (hu : skipBlanks u = ('\x7d' : CodePoint) :: rest) :
    entries? (fuel + 1) (string k ++ (':' : CodePoint) :: t) = some ([(.str k, d)], rest) := by
  rw [entries?, skipBlanks_string]
  simp only [Option.bind_eq_bind, Option.bind_some, stringTail_escaped, skipBlanks_colon, hvalue,
    hu]
  rfl

/-- In front of a comma, others follow. -/
theorem entries?_more (k : Text) (hvalue : value? fuel t = some (d, u))
    (hu : skipBlanks u = (',' : CodePoint) :: rest) :
    entries? (fuel + 1) (string k ++ (':' : CodePoint) :: t) =
      (entries? fuel rest).map fun r => ((.str k, d) :: r.1, r.2) := by
  rw [entries?, skipBlanks_string]
  simp only [Option.bind_eq_bind, Option.bind_some, stringTail_escaped, skipBlanks_colon, hvalue,
    hu]
  cases entries? fuel rest <;> rfl

end Steps

/-- A blank, a comma and a closing bracket end a value. -/
theorem ends_cons {c : CodePoint} (h : IsBlankChar c ∨ c = ',' ∨ c = ']' ∨ c = '\x7d') (t : Text) :
    Ends (c :: t) := by
  intro d hd
  obtain rfl := Option.some.inj hd
  obtain (rfl | rfl | rfl | rfl) | rfl | rfl | rfl := h <;> decide

/-- What ends a value ends it behind blanks. -/
theorem ends_blank_append {w : Text} (hw : IsBlank w) {t : Text} (h : Ends t) : Ends (w ++ t) := by
  cases w with
  | nil => exact h
  | cons c w => exact ends_cons (.inl (hw c (List.mem_cons_self ..))) _

/-- What skips the blanks in front does not see them. -/
theorem apply_blank_append {α : Type} {read : Text → α} (hread : ∀ t, read (skipBlanks t) = read t)
    {w : Text} (h : IsBlank w) (t : Text) : read (w ++ t) = read t := by
  rw [← hread, skipBlanks_append h, hread]

/-- Blanks before a closing bracket or a comma are skipped. -/
theorem skipBlanks_mark {w : Text} (h : IsBlank w) {c : CodePoint}
    (hc : c = ',' ∨ c = ']' ∨ c = '\x7d') (t : Text) : skipBlanks (w ++ c :: t) = c :: t := by
  rw [skipBlanks_append h, skipBlanks_cons]
  obtain rfl | rfl | rfl := hc <;> simp [IsBlankChar]

/-- A comma has no blanks in front. -/
theorem skipBlanks_comma (t : Text) :
    skipBlanks ((',' : CodePoint) :: t) = (',' : CodePoint) :: t :=
  skipBlanks_mark (w := []) nofun (.inl rfl) t

/-- A document is read behind blanks as well. -/
theorem Spells.blank_append {t w : Text} {d : Document} (h : Spells t d) (hw : IsBlank w)
    {fuel : Nat} (hfuel : t.length < fuel) {rest : Text} (hrest : Ends rest) :
    value? fuel (w ++ (t ++ rest)) = some (d, rest) :=
  (apply_blank_append (value?_skipBlanks fuel) hw _).trans (h fuel rest hfuel hrest)

section Parts

variable {w blank : Text} {f : Document → Text}

/-- **The items of a list are read from their texts** with commas between them. -/
theorem items?_intercalate (hw : IsBlank w) (hblank : IsBlank blank) {ds : List Document}
    (hne : ds ≠ []) (h : ∀ d ∈ ds, Spells (f d) d) {fuel : Nat}
    (hfuel : (((',' : CodePoint) :: w).intercalate (ds.map f)).length + 1 < fuel) (rest : Text) :
    items? fuel (((',' : CodePoint) :: w).intercalate (ds.map f) ++
        (blank ++ (']' : CodePoint) :: rest)) =
      some (ds, rest) := by
  induction ds generalizing fuel with
  | nil => exact absurd rfl hne
  | cons d ds ih =>
    obtain ⟨fuel, rfl⟩ := Nat.exists_eq_add_one_of_ne_zero (Nat.ne_zero_of_lt hfuel)
    have hd := h d (List.mem_cons_self ..)
    -- a closing bracket follows the last item, and a comma any other
    cases ds with
    | nil =>
      rw [List.map_singleton, List.intercalate_singleton] at hfuel ⊢
      have hends : Ends (blank ++ (']' : CodePoint) :: rest) :=
        ends_blank_append hblank (ends_cons (.inr (.inr (.inl rfl))) rest)
      exact items?_last (hd fuel _ (Nat.lt_of_succ_lt_succ hfuel) hends)
        (skipBlanks_mark hblank (.inr (.inl rfl)) rest)
    | cons e ds =>
      rw [List.map_cons, List.map_cons, List.intercalate_cons_cons, ← List.map_cons] at hfuel ⊢
      rw [List.length_append, List.length_append, List.length_cons] at hfuel
      rw [List.append_assoc, List.append_assoc, List.cons_append]
      have hshort : (f d).length < fuel := by omega
      have hends : ∀ t, Ends ((',' : CodePoint) :: t) := ends_cons (.inr (.inl rfl))
      rw [items?_more (hd fuel _ hshort (hends _)) (skipBlanks_comma _),
        apply_blank_append (items?_skipBlanks fuel) hw,
        ih (List.cons_ne_nil e ds) (fun x hx => h x (List.mem_cons_of_mem d hx)) (by omega)]
      rfl

/-- A field of an object, its name and its value. -/
def writeField (f : Document → Text) (e : Text × Document) : Text :=
  string e.1 ++ ": " ++ f e.2

/-- **The fields of an object are read from their texts** with commas between them. -/
theorem entries?_intercalate (hw : IsBlank w) (hblank : IsBlank blank)
    {es : List (Text × Document)} (hne : es ≠ []) (h : ∀ e ∈ es, Spells (f e.2) e.2) {fuel : Nat}
    (hfuel : (((',' : CodePoint) :: w).intercalate (es.map (writeField f))).length + 1 < fuel)
    (rest : Text) :
    entries? fuel (((',' : CodePoint) :: w).intercalate (es.map (writeField f)) ++
        (blank ++ ('\x7d' : CodePoint) :: rest)) =
      some (es.map fun e => (.str e.1, e.2), rest) := by
  have hspace : IsBlank [' '] := by simp [IsBlank, IsBlankChar]
  induction es generalizing fuel with
  | nil => exact absurd rfl hne
  | cons e es ih =>
    obtain ⟨fuel, rfl⟩ := Nat.exists_eq_add_one_of_ne_zero (Nat.ne_zero_of_lt hfuel)
    have hd := h e (List.mem_cons_self ..)
    have hfield : ∀ t, writeField f e ++ t =
        string e.1 ++ (':' : CodePoint) :: ([(' ' : CodePoint)] ++ (f e.2 ++ t)) := by
      intro t
      rw [writeField, List.append_assoc, List.append_assoc]
      rfl
    have hcolon : (": " : Text).length = 2 := rfl
    have hlength : (f e.2).length < (writeField f e).length := by
      rw [writeField, List.length_append, List.length_append, hcolon]
      omega
    cases es with
    | nil =>
      rw [List.map_singleton, List.intercalate_singleton] at hfuel ⊢
      have hshort : (f e.2).length < fuel := by omega
      have hends : Ends (blank ++ ('\x7d' : CodePoint) :: rest) :=
        ends_blank_append hblank (ends_cons (.inr (.inr (.inr rfl))) rest)
      rw [hfield]
      exact entries?_last e.1 (hd.blank_append hspace hshort hends)
        (skipBlanks_mark hblank (.inr (.inr rfl)) rest)
    | cons e' es =>
      rw [List.map_cons, List.map_cons, List.intercalate_cons_cons, ← List.map_cons] at hfuel ⊢
      rw [List.length_append, List.length_append, List.length_cons] at hfuel
      rw [List.append_assoc, List.append_assoc, List.cons_append, hfield]
      have hshort : (f e.2).length < fuel := by omega
      have hends : ∀ t, Ends ((',' : CodePoint) :: t) := ends_cons (.inr (.inl rfl))
      rw [entries?_more e.1 (hd.blank_append hspace hshort (hends _)) (skipBlanks_comma _),
        apply_blank_append (entries?_skipBlanks fuel) hw,
        ih (List.cons_ne_nil e' es) (fun x hx => h x (List.mem_cons_of_mem e hx)) (by omega)]
      rfl

end Parts

/-! ### Lists and objects -/

/-- A closing bracket is no item. -/
theorem items?_closing (fuel : Nat) (t : Text) : items? fuel ((']' : CodePoint) :: t) = none := by
  cases fuel with
  | zero => rfl
  | succ fuel => cases fuel <;> rfl

/-- A closing brace is no entry. -/
theorem entries?_closing (fuel : Nat) (t : Text) :
    entries? fuel (('\x7d' : CodePoint) :: t) = none := by
  cases fuel <;> rfl

/-- A list is what its items are read as. -/
theorem value?_list {fuel : Nat} {t rest : Text} {ds : List Document}
    (h : items? fuel t = some (ds, rest)) :
    value? (fuel + 1) (('[' : CodePoint) :: t) = some (.list ds, rest) := by
  have hopening : skipBlanks (('[' : CodePoint) :: t) = ('[' : CodePoint) :: t :=
    skipBlanks_cons (by simp [IsBlankChar]) t
  rw [← items?_skipBlanks] at h
  simp only [value?, hopening]
  split
  · rename_i hclosing
    rw [hclosing, items?_closing] at h
    cases h
  · rw [h]
    rfl

/-- A mapping is what its entries are read as, each key once. -/
theorem value?_map {fuel : Nat} {t rest : Text} {es : List (Document × Document)}
    (h : entries? fuel t = some (es, rest)) :
    value? (fuel + 1) (('\x7b' : CodePoint) :: t) =
      some (.map (Document.mergeEntries [] es), rest) := by
  have hopening : skipBlanks (('\x7b' : CodePoint) :: t) = ('\x7b' : CodePoint) :: t :=
    skipBlanks_cons (by simp [IsBlankChar]) t
  rw [← entries?_skipBlanks] at h
  simp only [value?, hopening]
  split
  · rename_i hclosing
    rw [hclosing, entries?_closing] at h
    cases h
  · rw [h]
    rfl

namespace Layout

/-- A layout that sets parts apart by blanks. -/
def IsBlank : Layout → Prop
  | line => True
  | indented unit => Json.IsBlank unit

variable {layout : Layout}

/-- A blank layout has blanks behind an opening bracket. -/
theorem IsBlank.start (h : layout.IsBlank) (depth : Nat) : Json.IsBlank (layout.start depth) := by
  cases layout with
  | line => nofun
  | indented unit =>
    intro c hc
    rw [Layout.start, List.mem_cons, List.mem_flatten] at hc
    obtain rfl | ⟨u, hu, hc⟩ := hc
    · exact .inr (.inr (.inl rfl))
    · rw [List.eq_of_mem_replicate hu] at hc
      exact h c hc

/-- A blank layout has blanks behind the comma between items. -/
theorem IsBlank.separator (h : layout.IsBlank) (depth : Nat) :
    ∃ w, Json.IsBlank w ∧ layout.separator depth = (',' : CodePoint) :: w := by
  cases layout with
  | line => exact ⟨[' '], by simp [Json.IsBlank, IsBlankChar], rfl⟩
  | indented unit => exact ⟨_, h.start depth, rfl⟩

end Layout

/-- Items are written one by one. -/
theorem writeItems_eq (layout : Layout) (depth : Nat) (ds : List Document) :
    writeItems layout depth ds = ds.map (write layout depth) := by
  induction ds with
  | nil => rfl
  | cons d ds ih => rw [writeItems, ih, List.map_cons]

/-- The entries whose keys are texts. -/
def entriesOf (es : List (Text × Document)) : List (Document × Document) :=
  es.map fun e => (.str e.1, e.2)

/-- Entries are written one by one. -/
theorem writeEntries_eq (layout : Layout) (depth : Nat) (es : List (Text × Document)) :
    writeEntries layout depth (entriesOf es) = es.map (writeField (write layout depth)) := by
  induction es with
  | nil => rfl
  | cons e es ih => exact congrArg (_ :: ·) ih

variable {layout : Layout}

/-- **A list is spelled** if its items are. -/
theorem spells_list (hlayout : layout.IsBlank) (depth : Nat) {ds : List Document}
    (h : ∀ d ∈ ds, Spells (write layout (depth + 1) d) d) :
    Spells (write layout depth (.list ds)) (.list ds) := by
  intro fuel rest hfuel _
  obtain ⟨fuel, rfl⟩ := Nat.exists_eq_add_one_of_ne_zero (Nat.ne_zero_of_lt hfuel)
  obtain ⟨w, hw, hseparator⟩ := hlayout.separator (depth + 1)
  rw [write, writeItems_eq, enclose, hseparator] at hfuel ⊢
  by_cases hempty : ds = []
  · subst hempty
    rfl
  · have hparts : ¬ (ds.map (write layout (depth + 1))).isEmpty = true := by
      simpa using hempty
    rw [if_neg hparts] at hfuel ⊢
    simp only [List.length_append, List.length_singleton] at hfuel
    have hfuel : (((',' : CodePoint) :: w).intercalate
        (ds.map (write layout (depth + 1)))).length + 1 < fuel := by
      omega
    have hitems := items?_intercalate hw (hlayout.start depth) hempty h hfuel rest
    rw [← apply_blank_append (items?_skipBlanks fuel) (hlayout.start (depth + 1))] at hitems
    simpa using value?_list hitems

/-- A new key goes to the end. -/
theorem insertEntry_entriesOf {name : Text} (value : Document) {es : List (Text × Document)}
    (h : name ∉ es.map (·.1)) :
    Document.insertEntry (.str name) value (entriesOf es) = entriesOf (es ++ [(name, value)]) := by
  induction es with
  | nil => rfl
  | cons e es ih =>
    obtain ⟨hne, hrest⟩ := not_or.1 fun hmem => h (List.mem_cons.2 hmem)
    have hkey : Document.sameKey (.str e.1) (.str name) = false := beq_false_of_ne (Ne.symm hne)
    calc Document.insertEntry (.str name) value (entriesOf (e :: es))
        = (.str e.1, e.2) :: Document.insertEntry (.str name) value (entriesOf es) := by
          rw [entriesOf, List.map_cons, Document.insertEntry, hkey, if_neg Bool.false_ne_true]
          rfl
      _ = entriesOf (e :: es ++ [(name, value)]) := by
          rw [ih hrest]
          rfl

/-- Distinct names keep all their entries. -/
theorem mergeEntries_entriesOf {before es : List (Text × Document)}
    (h : ((before ++ es).map (·.1)).Nodup) :
    Document.mergeEntries (entriesOf before) (entriesOf es) = entriesOf (before ++ es) := by
  induction es generalizing before with
  | nil => rw [List.append_nil]; rfl
  | cons e es ih =>
    have hinsert : Document.insertEntry (.str e.1) e.2 (entriesOf before) =
        entriesOf (before ++ [e]) := by
      rw [List.map_append, List.nodup_append] at h
      exact insertEntry_entriesOf e.2 fun hmem => h.2.2 _ hmem _ (List.mem_cons_self ..) rfl
    rw [List.append_cons] at h ⊢
    rw [← ih h, ← hinsert]
    rfl

/-- **An object is spelled** if its values are, and its names are distinct. -/
theorem spells_map (hlayout : layout.IsBlank) (depth : Nat) {es : List (Text × Document)}
    (hnames : (es.map (·.1)).Nodup) (h : ∀ e ∈ es, Spells (write layout (depth + 1) e.2) e.2) :
    Spells (write layout depth (.map (entriesOf es))) (.map (entriesOf es)) := by
  intro fuel rest hfuel _
  obtain ⟨fuel, rfl⟩ := Nat.exists_eq_add_one_of_ne_zero (Nat.ne_zero_of_lt hfuel)
  obtain ⟨w, hw, hseparator⟩ := hlayout.separator (depth + 1)
  rw [write, writeEntries_eq, enclose, hseparator] at hfuel ⊢
  by_cases hempty : es = []
  · subst hempty
    rfl
  · have hparts : ¬ (es.map (writeField (write layout (depth + 1)))).isEmpty = true := by
      simpa using hempty
    rw [if_neg hparts] at hfuel ⊢
    simp only [List.length_append, List.length_singleton] at hfuel
    have hfuel : (((',' : CodePoint) :: w).intercalate
        (es.map (writeField (write layout (depth + 1))))).length + 1 < fuel := by
      omega
    have hentries := entries?_intercalate hw (hlayout.start depth) hempty h hfuel rest
    rw [← apply_blank_append (entries?_skipBlanks fuel) (hlayout.start (depth + 1))] at hentries
    have hmerged : Document.mergeEntries [] (entriesOf es) = entriesOf es :=
      @mergeEntries_entriesOf [] es hnames
    have hmap := value?_map hentries
    rw [← entriesOf, hmerged] at hmap
    simpa using hmap

end Json

/-- A JSON value: a document of truth values, numbers, texts, lists and mappings, in which
all keys are texts, no two of a mapping alike. -/
inductive Document.IsPlain : Document → Prop where
  | null : IsPlain .null
  | bool (b : Bool) : IsPlain (.bool b)
  | int (n : Int) : IsPlain (.int n)
  | float (x : Binary64) : IsPlain (.float x)
  | str (s : Text) : IsPlain (.str s)
  | list {items : List Document} (hitems : ∀ d ∈ items, IsPlain d) : IsPlain (.list items)
  | map {es : List (Text × Document)} (hnames : (es.map (·.1)).Nodup)
      (hvalues : ∀ e ∈ es, IsPlain e.2) : IsPlain (.map (Json.entriesOf es))

namespace Json

/-! ### Forms -/

/-- An integer has a form if it is not too long. -/
theorem numeralFault?_eq_none_iff {n : Int} :
    numeralFault? n = none ↔ Numeral.isLong n = false := by
  rw [numeralFault?, ite_eq_right_iff, ← Bool.not_eq_true]
  exact forall_congr' fun _ => iff_false_intro nofun

/-- A list has a form if its items have. -/
theorem itemsFault?_eq_none_iff {ds : List Document} :
    itemsFault? ds = none ↔ ∀ d ∈ ds, formFault? d = none := by
  induction ds with
  | nil => exact iff_of_true rfl nofun
  | cons d ds ih => rw [itemsFault?, Option.or_eq_none_iff, ih, List.forall_mem_cons]

/-- A mapping with texts as keys has a form if its values have. -/
theorem entriesFault?_eq_none_iff {es : List (Text × Document)} :
    entriesFault? (entriesOf es) = none ↔ ∀ e ∈ es, formFault? e.2 = none := by
  induction es with
  | nil => exact iff_of_true rfl nofun
  | cons e es ih =>
    have hstep : entriesFault? (entriesOf (e :: es)) =
        (formFault? e.2).or (entriesFault? (entriesOf es)) := rfl
    rw [hstep, Option.or_eq_none_iff, ih, List.forall_mem_cons]

/-- A list holds no long integer if its items hold none. -/
theorem anyLong_eq_false_iff {ds : List Document} :
    Document.anyLong ds = false ↔ ∀ d ∈ ds, d.holdsLong = false := by
  induction ds with
  | nil => exact iff_of_true rfl nofun
  | cons d ds ih => rw [Document.anyLong, Bool.or_eq_false_iff, ih, List.forall_mem_cons]

/-- A mapping with texts as keys holds no long integer if its values hold none. -/
theorem anyEntryLong_eq_false_iff {es : List (Text × Document)} :
    Document.anyEntryLong (entriesOf es) = false ↔ ∀ e ∈ es, e.2.holdsLong = false := by
  induction es with
  | nil => exact iff_of_true rfl nofun
  | cons e es ih =>
    have hstep : Document.anyEntryLong (entriesOf (e :: es)) =
        (e.2.holdsLong || Document.anyEntryLong (entriesOf es)) := rfl
    rw [hstep, Bool.or_eq_false_iff, ih, List.forall_mem_cons]

/-- **JSON has a form for a JSON value exactly if no integer in it is too long.** -/
theorem formFault?_eq_none_iff {d : Document} (h : d.IsPlain) :
    formFault? d = none ↔ d.holdsLong = false := by
  induction h with
  | null | bool | float | str => exact iff_of_true rfl rfl
  | int n => exact numeralFault?_eq_none_iff
  | list _ ih =>
    exact itemsFault?_eq_none_iff.trans ((forall₂_congr ih).trans anyLong_eq_false_iff.symm)
  | map _ _ ih =>
    exact entriesFault?_eq_none_iff.trans ((forall₂_congr ih).trans anyEntryLong_eq_false_iff.symm)

variable {layout : Layout}

/-- A JSON value without a fault is spelled by its text. -/
theorem spells_write (hlayout : layout.IsBlank) {d : Document} (h : d.IsPlain)
    (hform : formFault? d = none) (depth : Nat) : Spells (write layout depth d) d := by
  induction h generalizing depth with
  | null => exact spells_null
  | bool b => exact spells_bool b
  | int n => exact spells_int (numeralFault?_eq_none_iff.1 hform)
  | float x => exact spells_float x
  | str s => exact spells_string s
  | list _ ih =>
    have hitems := itemsFault?_eq_none_iff.1 hform
    exact spells_list hlayout depth fun d hd => ih d hd (hitems d hd) (depth + 1)
  | map hnames _ ih =>
    have hvalues := entriesFault?_eq_none_iff.1 hform
    exact spells_map hlayout depth hnames fun e he => ih e he (hvalues e he) (depth + 1)

/-- **A JSON value without a fault is read from its own text**, in any layout. -/
theorem decode_encode (hlayout : layout.IsBlank) {d : Document} (h : d.IsPlain)
    (hform : hasForm d = true) : decode (encode layout d) = some d :=
  decode_of_spells (spells_write hlayout h (Option.isNone_iff_eq_none.1 hform) 0)

end Json
end PhoneticBengali
