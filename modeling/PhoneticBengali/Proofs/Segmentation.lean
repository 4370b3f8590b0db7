/-
# Where a text is cut

`segmentsFrom` walks over a text with a count of characters to skip.  `Cut` says
the same without the count: a text is cut behind the literal of the first rule
that stands at its beginning, and behind a single character where none does.  In
a table without empty literals every text has a cut, the one that `segmentsFrom`
finds (`cut_segmentsFrom`), so what holds of a cut is proved by induction on it.

The first rule is found in the text that follows alone.  So a cut stays a cut
when more text is put in front (`Cut.within`), and the cuts of two texts make one
of both when no rule sees the second from inside the first (`Cut.append`).
-/

import PhoneticBengali.Forward
import Mathlib.Data.List.Find

namespace PhoneticBengali

/-- What follows `x` in a text that begins with it.  Characters are compared by
code, which takes a fraction of the time when rules are looked up in a proof. -/
def behind? : (x y : Text) → Option Text
  | [], y => some y
  | _ :: _, [] => none
  | c :: x, d :: y => if c.toNat = d.toNat then behind? x y else none

/-- What stands behind a text is the rest of one that begins with it. -/
theorem behind?_eq_some_iff {x y z : Text} : behind? x y = some z ↔ y = x ++ z := by
  induction x generalizing y with
  | nil => simp [behind?]
  | cons c x ih =>
    cases y with
    | nil => simp [behind?]
    | cons d y =>
      have hcode : c.toNat = d.toNat ↔ d = c := by rw [CodePoint.toNat_inj, eq_comm]
      simp only [behind?, hcode, List.cons_append, List.cons.injEq]
      split
      · rename_i h
        simp [h, ih]
      · rename_i h
        simp [h]

/-- `x` is the first element of `l` with the property `p`. -/
def IsFirst {α : Type} (p : α → Prop) (l : List α) (x : α) : Prop :=
  ∃ earlier later, l = earlier ++ x :: later ∧ p x ∧ ∀ y ∈ earlier, ¬ p y

/-- A search by a test finds the first entry with the property tested. -/
theorem find?_eq_some_iff_isFirst {α : Type} {p : α → Prop} {q : α → Bool}
    (h : ∀ y, q y = true ↔ p y) {l : List α} {x : α} : l.find? q = some x ↔ IsFirst p l x := by
  simp only [List.find?_eq_some_iff_append, IsFirst, ← h, Bool.not_eq_true', Bool.not_eq_true]
  constructor
  · rintro ⟨hx, earlier, later, hl, hearlier⟩
    exact ⟨earlier, later, hl, hx, hearlier⟩
  · rintro ⟨earlier, later, hl, hx, hearlier⟩
    exact ⟨hx, earlier, later, hl, hearlier⟩

namespace Rule

/-- A rule matches where its literal begins the text. -/
theorem matchesAt_iff (r : Rule) (rest : Text) : r.matchesAt rest = true ↔ r.find <+: rest :=
  List.isPrefixOf_iff_prefix

end Rule

namespace Segment

/-- The segment in a text that goes on with `before` to the left, nearest
character first, and with `after` to the right. -/
def within (s : Segment) (before after : Text) : Segment :=
  { s with left := s.left ++ before, right := s.right ++ after }

/-- A segment keeps its output in a longer text where its rule does. -/
theorem output_within {s : Segment} {before after : Text}
    (h : ∀ r, s.rule = some r →
      r.output (s.left ++ before) (s.right ++ after) = r.output s.left s.right) :
    (s.within before after).output = s.output := by
  cases hr : s.rule with
  | none => simp [output, within, hr]
  | some r => simpa [output, within, hr] using h r hr

/-- The text that a segment stands in. -/
def text (s : Segment) : Text :=
  s.left.reverse ++ s.source ++ s.right

/-- The text of a segment begins with what is left of it. -/
theorem take_text (s : Segment) : s.text.take s.left.length = s.left.reverse := by
  rw [text, List.append_assoc, List.take_left' List.length_reverse]

/-- Behind that come its source and what is right of it. -/
theorem drop_text (s : Segment) : s.text.drop s.left.length = s.source ++ s.right := by
  rw [text, List.append_assoc, List.drop_left' List.length_reverse]

/-- Behind its source comes what is right of it. -/
theorem drop_text_behind (s : Segment) :
    s.text.drop (s.left.length + s.source.length) = s.right := by
  rw [← List.drop_drop, drop_text, List.drop_left]

/-- Behind a segment the same text goes on. -/
theorem text_behind (s : Segment) :
    (s.source.reverse ++ s.left).reverse ++ s.right = s.text := by
  rw [List.reverse_append, List.reverse_reverse, text]

/-- The next segment begins where the source ends. -/
theorem length_behind (s : Segment) :
    (s.source.reverse ++ s.left).length = s.left.length + s.source.length := by
  rw [List.length_append, List.length_reverse, Nat.add_comm]

/-- The output of a segment without regard to its surroundings. -/
def plainOutput (s : Segment) : Text :=
  match s.rule with
  | some r => r.replace
  | none => s.source

end Segment

namespace RuleTable

variable {table : RuleTable}

/-- The first rule that matches is one of the table. -/
theorem mem_of_first? {rest : Text} {r : Rule} (h : table.first? rest = some r) : r ∈ table :=
  List.mem_of_find?_eq_some h

/-- The first rule that matches has its literal there. -/
theorem prefix_of_first? {rest : Text} {r : Rule} (h : table.first? rest = some r) :
    r.find <+: rest :=
  (r.matchesAt_iff rest).1 (List.find?_some (p := fun r : Rule => r.matchesAt rest) h)

/-- The first rule that matches is the first one whose literal begins the text. -/
theorem first?_eq_some_iff {rest : Text} {r : Rule} :
    table.first? rest = some r ↔ IsFirst (·.find <+: rest) table r :=
  find?_eq_some_iff_isFirst fun r => r.matchesAt_iff rest

/-- No rule matches exactly if no literal begins the text. -/
theorem first?_eq_none_iff {rest : Text} :
    table.first? rest = none ↔ ∀ r ∈ table, ¬ r.find <+: rest := by
  simp only [first?, List.find?_eq_none, Rule.matchesAt_iff]

/-- A rule is found by what it matches: texts that begin with the same literals
have the same first rule. -/
theorem first?_congr {x y : Text} (h : ∀ r ∈ table, r.find <+: x ↔ r.find <+: y) :
    table.first? x = table.first? y := by
  refine List.find?_congr fun r hr => ?_
  rw [Bool.eq_iff_iff, r.matchesAt_iff, r.matchesAt_iff]
  exact h r hr

/-- `first?` with characters compared by code. -/
def firstByCode? (table : RuleTable) (rest : Text) : Option Rule :=
  table.find? fun r => (behind? r.find rest).isSome

/-- The search among the rules with one first character finds the first rule that
matches. -/
theorem firstByCode?_eq (table : RuleTable) (rest : Text) :
    table.firstByCode? rest = table.first? rest := by
  refine List.find?_congr fun r _ => ?_
  rw [Bool.eq_iff_iff, r.matchesAt_iff, Option.isSome_iff_exists]
  exact exists_congr fun y => behind?_eq_some_iff.trans eq_comm

/-- The characters that follow `x` in some literal that begins with it. -/
def continuations (table : RuleTable) (x : Text) : Text :=
  table.filterMap fun r => (behind? x r.find).bind (·.head?)

/-- The continuations of a text are the characters that follow it in literals. -/
theorem mem_continuations {x : Text} {c : CodePoint} :
    c ∈ table.continuations x ↔ ∃ r ∈ table, ∃ y, r.find = x ++ c :: y := by
  simp only [continuations, List.mem_filterMap, Option.bind_eq_some_iff, behind?_eq_some_iff,
    List.head?_eq_some_iff]
  refine exists_congr fun r => and_congr_right fun _ => ⟨?_, ?_⟩
  · rintro ⟨z, hz, y, rfl⟩
    exact ⟨y, hz⟩
  · rintro ⟨y, hy⟩
    exact ⟨c :: y, hy, y, rfl⟩

/-- **The first rule sees one character beyond a text at most.**  Where `x` is not
continued by the character that comes next, what follows `x` does not matter. -/
theorem first?_append {x rest : Text} (h : ∀ c ∈ rest.head?, c ∉ table.continuations x) :
    table.first? (x ++ rest) = table.first? x := by
  refine first?_congr fun r hr => ⟨fun hxr => ?_, fun hx => List.prefix_append_of_prefix hx⟩
  rcases List.prefix_or_prefix_of_prefix hxr (List.prefix_append x rest) with hx | ⟨y, hy⟩
  · exact hx
  · cases y with
    | nil =>
      rw [List.append_nil] at hy
      exact hy ▸ List.prefix_refl x
    | cons c y =>
      rw [← hy, List.prefix_append_right_inj] at hxr
      obtain ⟨z, rfl⟩ := hxr
      exact absurd (mem_continuations.2 ⟨r, hr, y, hy.symm⟩) (h c rfl)

end RuleTable

/-- The text `rest` behind `left` is cut into `segments`. -/
inductive Cut (table : RuleTable) : (left rest : Text) → (segments : List Segment) → Prop where
  | done (left : Text) : Cut table left [] []
  | literal {left rest : Text} {r : Rule} {segments : List Segment} (filled : r.find ≠ [])
      (first : table.first? (r.find ++ rest) = some r)
      (later : Cut table (r.find.reverse ++ left) rest segments) :
      Cut table left (r.find ++ rest) (⟨left, r.find, rest, some r⟩ :: segments)
  | copy {left rest : Text} {c : CodePoint} {segments : List Segment}
      (unmatched : table.first? (c :: rest) = none)
      (later : Cut table (c :: left) rest segments) :
      Cut table left (c :: rest) (⟨left, [c], rest, none⟩ :: segments)

namespace RuleTable

variable {table : RuleTable}

/-- The characters to skip are those of the last segment, already behind the cut. -/
theorem segmentsFrom_skip (table : RuleTable) (left : Text) (skip : Nat) (rest : Text) :
    segmentsFrom table left skip rest =
      segmentsFrom table ((rest.take skip).reverse ++ left) 0 (rest.drop skip) := by
  induction rest generalizing left skip with
  | nil => simp [segmentsFrom]
  | cons c rest ih =>
    cases skip with
    | zero => rfl
    | succ skip => simp [segmentsFrom, ih (c :: left) skip]

/-- Where a rule is first, its literal is the next segment. -/
theorem segmentsFrom_literal {left rest : Text} {r : Rule} (hr : r.find ≠ [])
    (h : table.first? (r.find ++ rest) = some r) :
    segmentsFrom table left 0 (r.find ++ rest) =
      ⟨left, r.find, rest, some r⟩ :: segmentsFrom table (r.find.reverse ++ left) 0 rest := by
  obtain ⟨c, lit, hlit⟩ := List.exists_cons_of_ne_nil hr
  rw [hlit, List.cons_append] at h ⊢
  simp only [segmentsFrom, h, hlit]
  rw [segmentsFrom_skip]
  simp

/-- Where no rule matches, a single character is the next segment. -/
theorem segmentsFrom_copy {left rest : Text} {c : CodePoint} (h : table.first? (c :: rest) = none) :
    segmentsFrom table left 0 (c :: rest) =
      ⟨left, [c], rest, none⟩ :: segmentsFrom table (c :: left) 0 rest := by
  rw [segmentsFrom, h]

/-- What `segmentsFrom` finds is a cut.  The induction is on the length of the
text, since a literal takes several characters at once. -/
theorem cut_segmentsFrom (hfinds : ∀ r ∈ table, r.find ≠ []) (left rest : Text) :
    Cut table left rest (segmentsFrom table left 0 rest) := by
  cases hr : table.first? rest with
  | none =>
    cases rest with
    | nil => exact .done left
    | cons c rest =>
      rw [segmentsFrom_copy hr]
      exact .copy hr (cut_segmentsFrom hfinds (c :: left) rest)
  | some r =>
    have hne : r.find ≠ [] := hfinds r (mem_of_first? hr)
    obtain ⟨later, rfl⟩ := prefix_of_first? hr
    have : later.length < (r.find ++ later).length := by
      rw [List.length_append]
      have := List.length_pos_iff.2 hne
      omega
    rw [segmentsFrom_literal hne hr]
    exact .literal hne hr (cut_segmentsFrom hfinds (r.find.reverse ++ left) later)
termination_by rest.length

/-- The segments of a text are a cut of it, from its beginning on. -/
theorem cut_segments (hfinds : ∀ r ∈ table, r.find ≠ []) (t : Text) :
    Cut table [] t (table.segments t) :=
  cut_segmentsFrom hfinds [] t

/-- A cut is the one that `segmentsFrom` finds. -/
theorem segmentsFrom_eq {left rest : Text} {segments : List Segment}
    (h : Cut table left rest segments) : segmentsFrom table left 0 rest = segments := by
  induction h with
  | done left => rfl
  | literal filled first _ ih => rw [segmentsFrom_literal filled first, ih]
  | copy unmatched _ ih => rw [segmentsFrom_copy unmatched, ih]

end RuleTable

/-- A text that is cut behind `x`, whichever character of `next` follows: the first
rule for `x` takes all of it, and no literal goes on with such a character. -/
structure RuleTable.IsUnit (table : RuleTable) (x next : Text) : Prop where
  filled : x ≠ []
  whole : ∀ r ∈ table.first? x, r.find = x
  single : table.first? x = none → x.length = 1
  closed : ∀ c ∈ table.continuations x, c ∉ next

namespace Cut

variable {table : RuleTable} {left rest : Text} {segments : List Segment}

/-- Every segment stands in the text that is cut. -/
theorem text_eq (h : Cut table left rest segments) {s : Segment} (hs : s ∈ segments) :
    s.left.reverse ++ s.source ++ s.right = left.reverse ++ rest := by
  induction h with
  | done left => cases hs
  | literal _ _ _ ih =>
    rcases List.mem_cons.1 hs with rfl | hs
    · simp
    · simp [ih hs]
  | copy _ _ ih =>
    rcases List.mem_cons.1 hs with rfl | hs
    · simp
    · simp [ih hs]

/-- A segment and what follows it end the text that is cut. -/
theorem suffix (h : Cut table left rest segments) {s : Segment} (hs : s ∈ segments) :
    s.source ++ s.right <:+ rest := by
  induction h with
  | done left => cases hs
  | literal _ _ _ ih =>
    rcases List.mem_cons.1 hs with rfl | hs
    · exact List.suffix_refl _
    · exact (ih hs).trans (List.suffix_append _ _)
  | copy _ _ ih =>
    rcases List.mem_cons.1 hs with rfl | hs
    · exact List.suffix_refl _
    · exact (ih hs).trans (List.suffix_cons _ _)

/-- A text that is not empty has a first segment. -/
theorem exists_eq_cons (h : Cut table left rest segments) (hrest : rest ≠ []) :
    ∃ s later, segments = s :: later ∧ s.left = left := by
  cases h with
  | done left => exact absurd rfl hrest
  | literal => exact ⟨_, _, rfl, rfl⟩
  | copy => exact ⟨_, _, rfl, rfl⟩

/-- A segment has the first rule that matches where it begins. -/
theorem rule_eq (h : Cut table left rest segments) {s : Segment} (hs : s ∈ segments) :
    s.rule = table.first? (s.source ++ s.right) := by
  induction h with
  | done left => cases hs
  | literal _ first _ ih =>
    rcases List.mem_cons.1 hs with rfl | hs
    · exact first.symm
    · exact ih hs
  | copy unmatched _ ih =>
    rcases List.mem_cons.1 hs with rfl | hs
    · exact unmatched.symm
    · exact ih hs

/-- A segment with a rule is the literal of that rule. -/
theorem source_eq (h : Cut table left rest segments) {s : Segment} (hs : s ∈ segments) {r : Rule}
    (hr : s.rule = some r) : s.source = r.find := by
  induction h with
  | done left => cases hs
  | literal _ _ _ ih =>
    rcases List.mem_cons.1 hs with rfl | hs
    · exact congrArg Rule.find (Option.some.inj hr)
    · exact ih hs
  | copy _ _ ih =>
    rcases List.mem_cons.1 hs with rfl | hs
    · cases hr
    · exact ih hs

/-- A segment without a rule is a single character that no rule matches by itself. -/
theorem source_eq_singleton (h : Cut table left rest segments) {s : Segment} (hs : s ∈ segments)
    (hr : s.rule = none) : ∃ c, s.source = [c] ∧ table.first? [c] = none := by
  induction h with
  | done left => cases hs
  | literal _ _ _ ih =>
    rcases List.mem_cons.1 hs with rfl | hs
    · cases hr
    · exact ih hs
  | @copy _ rest c _ unmatched _ ih =>
    rcases List.mem_cons.1 hs with rfl | hs
    · refine ⟨c, rfl, RuleTable.first?_eq_none_iff.2 fun r hmem hmatch => ?_⟩
      exact RuleTable.first?_eq_none_iff.1 unmatched r hmem
        (hmatch.trans (List.prefix_append [c] rest))
    · exact ih hs

/-- The rules of a cut are those of the table. -/
theorem rule_mem (h : Cut table left rest segments) {s : Segment} (hs : s ∈ segments) {r : Rule}
    (hr : s.rule = some r) : r ∈ table :=
  RuleTable.mem_of_first? ((h.rule_eq hs).symm.trans hr)

/-- A unit is the first segment of a text that goes on as it allows. -/
theorem unit {x next : Text} (hx : table.IsUnit x next) (hrest : ∀ c ∈ rest.head?, c ∈ next)
    (later : Cut table (x.reverse ++ left) rest segments) :
    Cut table left (x ++ rest) (⟨left, x, rest, table.first? x⟩ :: segments) := by
  have hfirst : table.first? (x ++ rest) = table.first? x :=
    RuleTable.first?_append fun c hc hcontinued => hx.closed c hcontinued (hrest c hc)
  cases hr : table.first? x with
  | some r =>
    obtain rfl : r.find = x := hx.whole r hr
    exact .literal hx.filled (hfirst.trans hr) later
  | none =>
    obtain ⟨c, rfl⟩ := List.length_eq_one_iff.1 (hx.single hr)
    exact .copy (hfirst.trans hr) later

/-- Text put in front of a cut one moves no cut. -/
theorem within (h : Cut table left rest segments) (before : Text) :
    Cut table (left ++ before) rest (segments.map (·.within before [])) := by
  induction h with
  | done left => exact .done _
  | literal filled first _ ih =>
    rw [List.append_assoc] at ih
    simpa [Segment.within] using Cut.literal filled first ih
  | copy unmatched _ ih => simpa [Segment.within] using Cut.copy unmatched ih

/-- **Two cuts make one.**  It is enough that from no place in the first text
another rule is first for the sake of the second text. -/
theorem append {u v : Text} {later : List Segment} (hu : Cut table left u segments)
    (hv : Cut table (u.reverse ++ left) v later)
    (h : ∀ x, x ≠ [] → x <:+ u → table.first? (x ++ v) = table.first? x) :
    Cut table left (u ++ v) (segments.map (·.within [] v) ++ later) := by
  induction hu with
  | done left => exact hv
  | @literal left rest r segments filled first _ ih =>
    have hx : table.first? (r.find ++ (rest ++ v)) = some r := by
      rw [← List.append_assoc, h _ (by simp [filled]) (List.suffix_refl _), first]
    have hrest : Cut table (r.find.reverse ++ left) (rest ++ v)
        (segments.map (·.within [] v) ++ later) := by
      refine ih (by simpa using hv) fun x hne hx => h x hne ?_
      exact hx.trans (List.suffix_append _ _)
    simpa [Segment.within] using Cut.literal filled hx hrest
  | @copy left rest c segments unmatched _ ih =>
    have hx : table.first? (c :: (rest ++ v)) = none := by
      rw [← List.cons_append, h _ (by simp) (List.suffix_refl _), unmatched]
    have hrest : Cut table (c :: left) (rest ++ v) (segments.map (·.within [] v) ++ later) := by
      refine ih (by simpa using hv) fun x hne hx => h x hne ?_
      exact hx.trans (List.suffix_cons _ _)
    simpa [Segment.within] using Cut.copy hx hrest

end Cut
end PhoneticBengali
