/-
# What a rule file describes

The grammar of rule files, told of the documents themselves and not of how they are read.

| document | describes |
| --- | --- |
| mapping with a text `scope`, a `type` and for `exact` a text `value` that is not empty | a condition (`Condition.Describes`) |
| mapping with a text `replace` and a list `matches` of these, not empty | an alternative (`Alternative.Describes`) |
| mapping with a text `find` that is not empty, a text `replace` and no `rules` or a list | a rule (`Rule.Describes`) |

A scope is one of four names, and an exclamation mark in front of it is the only one that
may stand there.  A rule has those alternatives that entries of its list describe, and a
table those rules that entries of its list describe, both in order (`Picks`).

Reading accepts exactly these documents, with what they describe as the result, and
answers every other with a fault, or by no rule (`RuleTable.reads_grammar`).  A document that
is no rule is shown in the warning about it.  If it holds an integer of too many digits it
cannot be (`Rule.IsUnshowable`), and reading breaks off there.
-/

import PhoneticBengali.Proofs.Journal.Attempt
import PhoneticBengali.Rule.Grammar
import Mathlib.Data.List.Forall2

namespace PhoneticBengali

/-- `ys` are what those of `xs` that have something to them by `p` have, in order. -/
inductive Picks {α β : Type} (p : α → β → Prop) : List α → List β → Prop where
  | nil : Picks p [] []
  | take {x : α} {y : β} {xs : List α} {ys : List β} (h : p x y) (later : Picks p xs ys) :
      Picks p (x :: xs) (y :: ys)
  | skip {x : α} {xs : List α} {ys : List β} (h : ∀ y, ¬ p x y) (later : Picks p xs ys) :
      Picks p (x :: xs) ys

/-- To pick by what a function gives is to go through the list with it. -/
theorem picks_iff {α β : Type} {p : α → β → Prop} {f : α → Option β}
    (hf : ∀ x y, f x = some y ↔ p x y) {xs : List α} {ys : List β} :
    Picks p xs ys ↔ xs.filterMap f = ys := by
  constructor
  · intro h
    induction h with
    | nil => rfl
    | take h _ ih => rw [List.filterMap_cons_some ((hf _ _).2 h), ih]
    | skip h _ ih =>
      rw [List.filterMap_cons_none (Option.eq_none_iff_forall_ne_some.2 fun y hy =>
        h y ((hf _ y).1 hy)), ih]
  · rintro rfl
    induction xs with
    | nil => exact .nil
    | cons x xs ih =>
      cases hx : f x with
      | none =>
        rw [List.filterMap_cons_none hx]
        exact .skip (fun y hy => by rw [(hf x y).2 hy] at hx; cases hx) ih
      | some y =>
        rw [List.filterMap_cons_some hx]
        exact .take ((hf x y).1 hx) ih

/-- What a result has as its value is the result. -/
theorem Except.toOption_eq_some_iff {ε α : Type} {x : Except ε α} {a : α} :
    x.toOption = some a ↔ x = .ok a := by
  cases x <;> simp [Except.toOption]

/-- A reading that gives what `p` tells fails where there is nothing to tell. -/
theorem exists_error_iff {ε α : Type} {x : Except ε α} {p : α → Prop}
    (h : ∀ a, x = .ok a ↔ p a) : (∃ fault, x = .error fault) ↔ ∀ a, ¬ p a := by
  cases x with
  | error fault => simpa using fun a => mt (h a).2 (by simp)
  | ok a => simpa using ⟨a, (h a).1 rfl⟩

/-- A key holds what is read under it, if that is not nothing. -/
theorem Document.field_eq_iff {entries : List (Document × Document)} {name : Text}
    {d : Document} (hd : d ≠ .null) : field entries name = d ↔ field? entries name = some d := by
  rw [field]
  cases field? entries name with
  | none => simpa using Ne.symm hd
  | some value => simp

/-- A field that is read as a text is there as one. -/
theorem Document.field_eq_str_iff {entries : List (Document × Document)} {name s : Text} :
    field entries name = .str s ↔ field? entries name = some (.str s) :=
  field_eq_iff (by simp)

/-- A field that is read as a list is there as one. -/
theorem Document.field_eq_list_iff {entries : List (Document × Document)} {name : Text}
    {items : List Document} :
    field entries name = .list items ↔ field? entries name = some (.list items) :=
  field_eq_iff (by simp)

/-- A mapping holds an integer of too many digits if a value in it does. -/
theorem Document.anyEntryLong_of_mem {entries : List (Document × Document)}
    {e : Document × Document} (he : e ∈ entries) (hlong : e.2.holdsLong = true) :
    anyEntryLong entries = true := by
  induction entries with
  | nil => cases he
  | cons first rest ih =>
    rw [anyEntryLong, Bool.or_eq_true, Bool.or_eq_true]
    rcases List.mem_cons.1 he with rfl | hlater
    · exact .inl (.inr hlong)
    · exact .inr (ih hlater)

/-- A mapping with a long integer in a field holds it. -/
theorem Document.anyEntryLong_of_field? {entries : List (Document × Document)} {name : Text}
    {value : Document} (h : field? entries name = some value) (hlong : value.holdsLong = true) :
    anyEntryLong entries = true := by
  obtain ⟨e, he, rfl⟩ := Option.map_eq_some_iff.1 h
  exact anyEntryLong_of_mem (List.mem_of_find?_eq_some he) hlong

/-! ### Conditions -/

namespace Scope

/-- The scopes that a condition can have, by name. -/
def named : List (Text × Scope) :=
  [("vowel", .letter .vowel), ("consonant", .letter .consonant),
   ("punctuation", .letter .punctuation), ("exact", .exact)]

/-- The scopes have the names listed. -/
theorem ofName?_eq_some_iff {s : Text} {scope : Scope} :
    ofName? s = some scope ↔ (s, scope) ∈ named := by
  constructor
  · intro h
    rw [ofName?, ofName] at h
    split_ifs at h with hname hname hname hname
    all_goals
      obtain rfl := Option.some.inj h
      simp [named, hname]
  · intro h
    simp only [named, List.mem_cons, Prod.mk.injEq, List.not_mem_nil, or_false] at h
    rcases h with ⟨rfl, rfl⟩ | ⟨rfl, rfl⟩ | ⟨rfl, rfl⟩ | ⟨rfl, rfl⟩ <;> rfl

end Scope

namespace Side

/-- The sides of a match, by name. -/
def named : List (Text × Side) :=
  [("prefix", .before), ("suffix", .after)]

/-- The sides have the names listed, and nothing but a text names one. -/
theorem ofDocument?_eq_some_iff {d : Document} {side : Side} :
    ofDocument? d = some side ↔ ∃ s, d = .str s ∧ (s, side) ∈ named := by
  constructor
  · intro h
    cases d with
    | str s =>
      refine ⟨s, rfl, ?_⟩
      rw [ofDocument?, ofName?] at h
      split_ifs at h with hname hname
      all_goals
        obtain rfl := Option.some.inj h
        simp [named, hname]
    | _ => cases h
  · rintro ⟨s, rfl, h⟩
    simp only [named, List.mem_cons, Prod.mk.injEq, List.not_mem_nil, or_false] at h
    rcases h with ⟨rfl, rfl⟩ | ⟨rfl, rfl⟩ <;> rfl

end Side

namespace Condition

/-- A scope name as it is written, with an exclamation mark in front if it is negated. -/
def marked (negate : Bool) (name : Text) : Text :=
  if negate then "!" ++ name else name

/-- A text is its mark of negation and what is behind it. -/
theorem marked_splitNegation (s : Text) :
    marked (splitNegation s).1 (splitNegation s).2 = s := by
  unfold splitNegation
  split <;> rfl

/-- The four names have no exclamation mark of their own. -/
theorem splitNegation_marked {name : Text} {scope : Scope} (h : (name, scope) ∈ Scope.named)
    (negate : Bool) : splitNegation (marked negate name) = (negate, name) := by
  simp only [Scope.named, List.mem_cons, Prod.mk.injEq, List.not_mem_nil, or_false] at h
  rcases h with ⟨rfl, -⟩ | ⟨rfl, -⟩ | ⟨rfl, -⟩ | ⟨rfl, -⟩ <;> cases negate <;> rfl

/-- An exact condition has the text under `value` as its literal, and that is not empty;
other conditions have none. -/
def HasLiteral (entries : List (Document × Document)) (k : Condition) : Prop :=
  match k.scope with
  | .exact =>
    ∃ s, s ≠ [] ∧ Document.field? entries "value" = some (.str s) ∧ k.literal = some s
  | _ => k.literal = none

/-- A document describes a condition. -/
inductive Describes : Document → Condition → Prop where
  | mapping {entries : List (Document × Document)} {k : Condition} {scope side : Text}
      (scope_mem : (scope, k.scope) ∈ Scope.named)
      (scope_eq : Document.field? entries "scope" = some (.str (marked k.negate scope)))
      (side_mem : (side, k.side) ∈ Side.named)
      (side_eq : Document.field? entries "type" = some (.str side))
      (literal : HasLiteral entries k) : Describes (.map entries) k

/-- What is read as a condition describes it. -/
theorem describes_of_ofDocument {raw : Document} {k : Condition} (h : ofDocument raw = .ok k) :
    Describes raw k := by
  unfold ofDocument at h
  split at h
  · split at h
    · rename_i s hs
      have hmarked := marked_splitNegation s
      split at h
      rename_i negate name hsplit
      rw [hsplit] at hmarked
      rw [Document.field_eq_str_iff, ← hmarked] at hs
      split at h
      · -- an exact scope, and so a literal is read as well
        rename_i side hside hscope
        obtain ⟨t, ht, hside⟩ := Side.ofDocument?_eq_some_iff.1 hside
        split at h
        · rename_i literal hvalue
          split at h
          · cases h
          · rename_i hfilled
            obtain rfl := Except.ok.inj h
            exact .mapping (Scope.ofName?_eq_some_iff.1 hscope) hs hside
              (Document.field_eq_str_iff.1 ht) ⟨literal, by simpa using hfilled,
                Document.field_eq_str_iff.1 hvalue, rfl⟩
        · cases h
      · -- one of the other scopes
        rename_i side scope hexact hside hscope
        obtain ⟨t, ht, hside⟩ := Side.ofDocument?_eq_some_iff.1 hside
        obtain rfl := Except.ok.inj h
        refine .mapping (Scope.ofName?_eq_some_iff.1 hscope) hs hside
          (Document.field_eq_str_iff.1 ht) ?_
        cases scope with
        | exact => exact absurd rfl hexact
        | letter k => exact rfl
        | other name => exact rfl
      · cases h
    · cases h
  · cases h

/-- What describes a condition is read as it. -/
theorem Describes.ofDocument_eq {raw : Document} {k : Condition} (h : Describes raw k) :
    ofDocument raw = .ok k := by
  cases h with
  | mapping scope_mem scope_eq side_mem side_eq hliteral =>
    obtain ⟨side, scope, negate, literal⟩ := k
    have hscope := Document.field_eq_str_iff.2 scope_eq
    have hside := Side.ofDocument?_eq_some_iff.2 ⟨_, Document.field_eq_str_iff.2 side_eq,
      side_mem⟩
    have hname := Scope.ofName?_eq_some_iff.2 scope_mem
    simp only [ofDocument, hscope, splitNegation_marked scope_mem, hside, hname]
    cases scope with
    | exact =>
      obtain ⟨s, hfilled, hvalue, rfl⟩ := hliteral
      simp only [Document.field_eq_str_iff.2 hvalue, List.isEmpty_eq_false_iff.2 hfilled,
        Bool.false_eq_true, if_false]
    | letter k =>
      obtain rfl : literal = none := hliteral
      rfl
    | other name =>
      obtain rfl : literal = none := hliteral
      rfl

/-- **Conditions are read as they are described.** -/
theorem ofDocument_eq_ok_iff {raw : Document} {k : Condition} :
    ofDocument raw = .ok k ↔ Describes raw k :=
  ⟨describes_of_ofDocument, Describes.ofDocument_eq⟩

/-- Conditions are read one by one. -/
theorem mapM_ofDocument_eq_ok_iff {items : List Document} {conditions : List Condition} :
    items.mapM ofDocument = .ok conditions ↔ List.Forall₂ Describes items conditions := by
  rw [mapM_eq_ok_iff, ← List.forall₂_eq_eq_eq, List.forall₂_map_left_iff,
    List.forall₂_map_right_iff]
  simp only [ofDocument_eq_ok_iff]

end Condition

/-! ### Alternatives -/

namespace Alternative

/-- A document describes an alternative. -/
inductive Describes : Document → Alternative → Prop where
  | mapping {entries : List (Document × Document)} {replace : Text} {items : List Document}
      {conditions : List Condition}
      (replace_eq : Document.field? entries "replace" = some (.str replace))
      (matches_eq : Document.field? entries "matches" = some (.list items))
      (matches_ne_nil : items ≠ []) (each : List.Forall₂ Condition.Describes items conditions) :
      Describes (.map entries) ⟨conditions, replace⟩

/-- What is read as an alternative describes it. -/
theorem describes_of_ofDocument {raw : Document} {a : Alternative} (h : ofDocument raw = .ok a) :
    Describes raw a := by
  unfold ofDocument at h
  split at h
  · split at h
    · rename_i replace hreplace
      split at h
      · rename_i first rest hmatches
        cases hread : (first :: rest).mapM Condition.ofDocument with
        | error fault =>
          rw [hread] at h
          cases h
        | ok conditions =>
          rw [hread] at h
          obtain rfl := Except.ok.inj h
          exact .mapping (Document.field_eq_str_iff.1 hreplace)
            (Document.field_eq_list_iff.1 hmatches) (List.cons_ne_nil first rest)
            (Condition.mapM_ofDocument_eq_ok_iff.1 hread)
      · cases h
    · cases h
  · cases h

/-- What describes an alternative is read as it. -/
theorem Describes.ofDocument_eq {raw : Document} {a : Alternative} (h : Describes raw a) :
    ofDocument raw = .ok a := by
  cases h with
  | @mapping entries replace items conditions replace_eq matches_eq matches_ne_nil each =>
    obtain ⟨first, rest, rfl⟩ := List.exists_cons_of_ne_nil matches_ne_nil
    simp only [ofDocument, Document.field_eq_str_iff.2 replace_eq,
      Document.field_eq_list_iff.2 matches_eq, Condition.mapM_ofDocument_eq_ok_iff.2 each]
    rfl

/-- **Alternatives are read as they are described.** -/
theorem ofDocument_eq_ok_iff {raw : Document} {a : Alternative} :
    ofDocument raw = .ok a ↔ Describes raw a :=
  ⟨describes_of_ofDocument, Describes.ofDocument_eq⟩

end Alternative

/-! ### Rules -/

/-- A document has the form of a rule, with these texts and these entries for its
alternatives. -/
inductive Rule.HasForm : Document → (find replace : Text) → (items : List Document) → Prop where
  | mapping {entries : List (Document × Document)} {find replace : Text} {items : List Document}
      (find_eq : Document.field? entries "find" = some (.str find)) (find_ne : find ≠ [])
      (replace_eq : Document.field? entries "replace" = some (.str replace))
      (rules_eq : Document.field? entries "rules" = none ∧ items = [] ∨
        Document.field? entries "rules" = some (.list items)) :
      HasForm (.map entries) find replace items

/-- A document describes a rule. -/
def Rule.Describes (raw : Document) (r : Rule) : Prop :=
  ∃ find replace items, HasForm raw find replace items ∧ r.find = find ∧
    r.replace = replace ∧ Picks Alternative.Describes items r.alternatives

namespace Problem

variable {entries : List (Document × Document)} {key : Text}

/-- Placing a problem among others adds it and nothing else. -/
theorem mem_insert {p q : Problem} {ps : List Problem} : p ∈ insert q ps ↔ p = q ∨ p ∈ ps := by
  induction ps with
  | nil => simp [insert]
  | cons r ps ih =>
    rw [insert]
    split
    · rw [List.mem_cons, ih, List.mem_cons, or_left_comm]
    · exact List.mem_cons

/-- Problems in order are the same problems. -/
theorem mem_sort {p : Problem} {ps : List Problem} : p ∈ sort ps ↔ p ∈ ps := by
  induction ps with
  | nil => rfl
  | cons q ps ih => rw [show sort (q :: ps) = insert q (sort ps) from rfl, mem_insert, ih,
      List.mem_cons]

/-- Problems in another order are as many. -/
theorem sort_eq_nil {ps : List Problem} : sort ps = [] ↔ ps = [] := by
  simp only [List.eq_nil_iff_forall_not_mem, mem_sort]

/-- A key has no problem as a text exactly if a text stands there, and a filled one if one
is asked for. -/
theorem ofText_eq_nil_iff {filled : Bool} :
    ofText entries key filled = [] ↔
      ∃ s, Document.field? entries key = some (.str s) ∧ (filled = true → s ≠ []) := by
  rw [ofText]
  split
  · simp [*]
  · rename_i s hs
    simp [hs]
  · rename_i value hstr hvalue
    simpa [hvalue] using fun s hs => absurd hs (hstr s)

/-- A key has no problem as a list exactly if a list stands there, or nothing. -/
theorem ofList_eq_nil_iff :
    ofList entries key = [] ↔
      Document.field? entries key = none ∨
        ∃ items, Document.field? entries key = some (.list items) := by
  rw [ofList]
  split
  · simp [*]
  · rename_i items hitems
    simp [hitems]
  · rename_i value hlist hvalue
    simpa [hvalue] using hlist

/-- **A document has no problem** exactly if it has the form of a rule. -/
theorem ofRule_eq_nil_iff {raw : Document} :
    ofRule raw = [] ↔ ∃ find replace items, Rule.HasForm raw find replace items := by
  constructor
  · intro h
    cases raw with
    | map entries =>
      rw [ofRule, sort_eq_nil, List.append_eq_nil_iff, List.append_eq_nil_iff] at h
      obtain ⟨⟨hfind, hreplace⟩, hrules⟩ := h
      obtain ⟨find, hfind, hfilled⟩ := ofText_eq_nil_iff.1 hfind
      obtain ⟨replace, hreplace, -⟩ := ofText_eq_nil_iff.1 hreplace
      rcases ofList_eq_nil_iff.1 hrules with hrules | ⟨items, hrules⟩
      · exact ⟨find, replace, [], .mapping hfind (hfilled rfl) hreplace (.inl ⟨hrules, rfl⟩)⟩
      · exact ⟨find, replace, items, .mapping hfind (hfilled rfl) hreplace (.inr hrules)⟩
    | _ => cases h
  · rintro ⟨find, replace, items, h⟩
    cases h with
    | mapping find_eq find_ne replace_eq rules_eq =>
      rw [ofRule, sort_eq_nil, List.append_eq_nil_iff, List.append_eq_nil_iff]
      refine ⟨⟨ofText_eq_nil_iff.2 ⟨find, find_eq, fun _ => find_ne⟩,
        ofText_eq_nil_iff.2 ⟨replace, replace_eq, by simp⟩⟩, ofList_eq_nil_iff.2 ?_⟩
      exact rules_eq.imp And.left fun h => ⟨items, h⟩

/-- What a problem of a text blames is part of the mapping. -/
theorem anyEntryLong_of_mem_ofText {filled : Bool} {p : Problem}
    (hp : p ∈ ofText entries key filled) (hlong : p.subject.holdsLong = true) :
    Document.anyEntryLong entries = true := by
  rw [ofText] at hp
  split at hp
  · obtain rfl := List.mem_singleton.1 hp
    exact hlong
  · split at hp
    · obtain rfl := List.mem_singleton.1 hp
      cases hlong
    · cases hp
  · rename_i value _ hvalue
    obtain rfl := List.mem_singleton.1 hp
    exact Document.anyEntryLong_of_field? hvalue hlong

/-- So is what a problem of a list blames. -/
theorem anyEntryLong_of_mem_ofList {p : Problem} (hp : p ∈ ofList entries key)
    (hlong : p.subject.holdsLong = true) : Document.anyEntryLong entries = true := by
  rw [ofList] at hp
  split at hp
  · cases hp
  · cases hp
  · rename_i value _ hvalue
    obtain rfl := List.mem_singleton.1 hp
    exact Document.anyEntryLong_of_field? hvalue hlong

/-- A problem blames a part of the document, or the whole of it. -/
theorem holdsLong_of_mem_ofRule {raw : Document} {p : Problem} (hp : p ∈ ofRule raw)
    (hlong : p.subject.holdsLong = true) : raw.holdsLong = true := by
  cases raw with
  | map entries =>
    rw [ofRule, mem_sort, List.mem_append, List.mem_append] at hp
    rcases hp with (hp | hp) | hp
    · exact anyEntryLong_of_mem_ofText hp hlong
    · exact anyEntryLong_of_mem_ofText hp hlong
    · exact anyEntryLong_of_mem_ofList hp hlong
  | _ =>
    obtain rfl := List.mem_singleton.1 hp
    exact hlong

/-- Problems are told of if nothing of the document is too long to be shown. -/
theorem check_eq_ok {raw : Document} (h : raw.holdsLong = false) :
    check raw = .ok (ofRule raw) := by
  rw [check, if_neg]
  intro hany
  obtain ⟨p, hp, hlong⟩ := List.any_eq_true.1 hany
  rw [holdsLong_of_mem_ofRule hp hlong] at h
  cases h

/-- That there are none can always be told. -/
theorem check_eq_ok_nil_iff {raw : Document} : check raw = .ok [] ↔ ofRule raw = [] := by
  constructor
  · intro h
    rw [check] at h
    split at h
    · cases h
    · exact Except.ok.inj h
  · intro h
    simp [check, h]

end Problem

namespace Rule

/-- The alternatives that are read are those of the entries, in order, that can be. -/
theorem value_alternativesOf (find : Text) (index : Nat) (items : List Document) :
    (alternativesOf find index items).value =
      items.filterMap fun raw => (Alternative.ofDocument raw).toOption := by
  induction items generalizing index with
  | nil => rfl
  | cons raw items ih =>
    rw [alternativesOf]
    cases hraw : Alternative.ofDocument raw with
    | ok a =>
      rw [List.filterMap_cons_some (by rw [hraw]; rfl)]
      exact congrArg (a :: ·) (ih (index + 1))
    | error fault =>
      rw [List.filterMap_cons_none (by rw [hraw]; rfl)]
      exact ih (index + 1)

/-- A document that has the form of a rule is read as one. -/
theorem HasForm.value_ofDocument {raw : Document} {find replace : Text} {items : List Document}
    (h : HasForm raw find replace items) :
    (ofDocument raw).value = .ok (some ⟨find, replace,
      items.filterMap fun raw => (Alternative.ofDocument raw).toOption⟩) := by
  have hcheck := Problem.check_eq_ok_nil_iff.2
    (Problem.ofRule_eq_nil_iff.2 ⟨find, replace, items, h⟩)
  cases h with
  | @mapping entries find replace items find_eq find_ne replace_eq rules_eq =>
    simp only [ofDocument, hcheck, Document.field_eq_str_iff.2 find_eq,
      Document.field_eq_str_iff.2 replace_eq, Noted.map, value_alternativesOf]
    rcases rules_eq with ⟨hrules, rfl⟩ | hrules
    · simp [Document.field, hrules]
    · simp [Document.field, hrules]

/-- A document that has no such form, and cannot be shown in the warning about it. -/
def IsUnshowable (raw : Document) : Prop :=
  (∀ find replace items, ¬ HasForm raw find replace items) ∧ raw.holdsLong = true

/-- A document without the form of a rule is left out, unless it cannot be shown. -/
theorem value_ofDocument_of_formless {raw : Document}
    (h : ∀ find replace items, ¬ HasForm raw find replace items) :
    (ofDocument raw).value = if raw.holdsLong then .error .tooLong else .ok none := by
  have hproblems : Problem.ofRule raw ≠ [] := fun hnil => by
    obtain ⟨find, replace, items, hform⟩ := Problem.ofRule_eq_nil_iff.1 hnil
    exact h find replace items hform
  obtain ⟨p, ps, hps⟩ := List.exists_cons_of_ne_nil hproblems
  cases hlong : raw.holdsLong with
  | false => simp only [ofDocument, Problem.check_eq_ok hlong, hps, Document.shown, hlong,
      Bool.false_eq_true, if_false]
  | true =>
    cases hcheck : Problem.check raw with
    | error fault =>
      cases fault
      simp only [ofDocument, hcheck, Attempt.fail, if_true]
    | ok told =>
      have htold : told ≠ [] :=
        fun hnil => hproblems (Problem.check_eq_ok_nil_iff.1 (hnil ▸ hcheck))
      obtain ⟨q, qs, rfl⟩ := List.exists_cons_of_ne_nil htold
      simp only [ofDocument, hcheck, Document.shown, hlong, Attempt.fail, if_true]

/-- Every document has the form of a rule, or is left out, or cannot be shown. -/
theorem value_ofDocument_cases (raw : Document) :
    (∃ find replace items, HasForm raw find replace items) ∨
      (ofDocument raw).value = .ok none ∧
        (∀ find replace items, ¬ HasForm raw find replace items) ∧ raw.holdsLong = false ∨
      (ofDocument raw).value = .error .tooLong ∧ IsUnshowable raw := by
  by_cases hform : ∃ find replace items, HasForm raw find replace items
  · exact .inl hform
  · have hformless : ∀ find replace items, ¬ HasForm raw find replace items :=
      fun find replace items h => hform ⟨find, replace, items, h⟩
    have hvalue := value_ofDocument_of_formless hformless
    cases hlong : raw.holdsLong with
    | false => exact .inr (.inl ⟨by simpa [hlong] using hvalue, hformless, rfl⟩)
    | true => exact .inr (.inr ⟨by simpa [hlong] using hvalue, hformless, hlong⟩)

/-- No other document than one with the form of a rule is read as one. -/
theorem value_ofDocument_eq_some_iff {raw : Document} {r : Rule} :
    (ofDocument raw).value = .ok (some r) ↔ ∃ find replace items, HasForm raw find replace items ∧
      r = ⟨find, replace, items.filterMap fun raw => (Alternative.ofDocument raw).toOption⟩ := by
  constructor
  · intro h
    rcases value_ofDocument_cases raw with ⟨find, replace, items, hform⟩ | ⟨hnone, -⟩ | ⟨herror, -⟩
    · have hsome := h.symm.trans hform.value_ofDocument
      exact ⟨find, replace, items, hform, Option.some.inj (Except.ok.inj hsome)⟩
    · cases h.symm.trans hnone
    · cases h.symm.trans herror
  · rintro ⟨find, replace, items, hform, rfl⟩
    exact hform.value_ofDocument

/-- A document is left out exactly if it has no such form and can be shown. -/
theorem value_ofDocument_eq_none_iff {raw : Document} :
    (ofDocument raw).value = .ok none ↔
      (∀ find replace items, ¬ HasForm raw find replace items) ∧ raw.holdsLong = false := by
  constructor
  · intro h
    rcases value_ofDocument_cases raw with ⟨find, replace, items, hform⟩ | ⟨-, hnone⟩ | ⟨herror, -⟩
    · cases h.symm.trans hform.value_ofDocument
    · exact hnone
    · cases h.symm.trans herror
  · rintro ⟨hformless, hlong⟩
    simp [value_ofDocument_of_formless hformless, hlong]

/-- Reading breaks off exactly at a document that has no such form and cannot be shown. -/
theorem exists_error_ofDocument_iff {raw : Document} :
    (∃ fault, (ofDocument raw).value = .error fault) ↔ IsUnshowable raw := by
  constructor
  · rintro ⟨fault, h⟩
    rcases value_ofDocument_cases raw with ⟨find, replace, items, hform⟩ | ⟨hnone, -⟩ | ⟨-, h⟩
    · cases h.symm.trans hform.value_ofDocument
    · cases h.symm.trans hnone
    · exact h
  · rintro ⟨hformless, hlong⟩
    exact ⟨.tooLong, by simp [value_ofDocument_of_formless hformless, hlong]⟩

/-- **Rules are read as they are described.** -/
theorem value_ofDocument_eq_some_iff_describes {raw : Document} {r : Rule} :
    (ofDocument raw).value = .ok (some r) ↔ Describes raw r := by
  have hpicks : ∀ {items alternatives}, Picks Alternative.Describes items alternatives ↔
      items.filterMap (fun raw => (Alternative.ofDocument raw).toOption) = alternatives :=
    picks_iff fun raw a => Except.toOption_eq_some_iff.trans Alternative.ofDocument_eq_ok_iff
  rw [value_ofDocument_eq_some_iff]
  constructor
  · rintro ⟨find, replace, items, hform, rfl⟩
    exact ⟨find, replace, items, hform, rfl, rfl, hpicks.2 rfl⟩
  · rintro ⟨find, replace, items, hform, hfind, hreplace, halternatives⟩
    obtain ⟨rfind, rreplace, alternatives⟩ := r
    obtain rfl : rfind = find := hfind
    obtain rfl : rreplace = replace := hreplace
    exact ⟨rfind, rreplace, items, hform, by rw [hpicks.1 halternatives]⟩

end Rule

/-! ### Tables -/

namespace RuleTable

/-- What an entry adds to the table, if it is read as a rule. -/
def accepted? (raw : Document) : Option Rule :=
  (Rule.ofDocument raw).value.toOption.join

/-- An entry adds what it is read as. -/
theorem accepted?_eq_some_iff {raw : Document} {r : Rule} :
    accepted? raw = some r ↔ (Rule.ofDocument raw).value = .ok (some r) := by
  rw [accepted?]
  rcases (Rule.ofDocument raw).value with fault | _ | s <;> simp [Except.toOption]

/-- Reading a list breaks off at an entry that is no rule and cannot be shown. -/
theorem exists_error_ofEntries_iff {entries : List Document} :
    (∃ fault, (ofEntries entries).value = .error fault) ↔
      ∃ raw ∈ entries, Rule.IsUnshowable raw := by
  have hall : (∃ fault, (ofEntries entries).value = .error fault) ↔
      ∃ fault, (entries.map Rule.ofDocument).mapM (·.value) = .error fault := by
    rw [ofEntries, Attempt.value_andThen, Attempt.value_all]
    cases (entries.map Rule.ofDocument).mapM (·.value) <;> simp [bind, Except.bind]
  rw [hall, exists_error_mapM_iff]
  simp only [List.mem_map, exists_exists_and_eq_and, Rule.exists_error_ofDocument_iff]

/-- A list without such an entry is read as what its entries add. -/
theorem value_ofEntries {entries : List Document} (h : ∀ raw ∈ entries, ¬ Rule.IsUnshowable raw) :
    (ofEntries entries).value = .ok (entries.filterMap accepted?) := by
  have hnone : ¬ ∃ fault, (entries.map Rule.ofDocument).mapM (·.value) = .error fault := by
    rw [exists_error_mapM_iff]
    rintro ⟨_, hx, hfault⟩
    obtain ⟨raw, hraw, rfl⟩ := List.mem_map.1 hx
    exact h raw hraw (Rule.exists_error_ofDocument_iff.1 hfault)
  rw [ofEntries, Attempt.value_andThen, Attempt.value_all]
  cases hrules : (entries.map Rule.ofDocument).mapM (·.value) with
  | error fault => exact absurd ⟨fault, hrules⟩ hnone
  | ok rules =>
    have hmap := congrArg (List.filterMap fun x => x.toOption.join) (mapM_eq_ok_iff.1 hrules)
    simp only [List.map_map, List.filterMap_map] at hmap
    exact congrArg Except.ok hmap.symm

/-- What a list of entries is read as, and where reading it breaks off. -/
theorem value_ofDocument_list (entries : List Document) :
    (∃ raw ∈ entries, Rule.IsUnshowable raw) ∧
        (ofDocument (.list entries)).value = .error (.unshowable .tooLong) ∨
      (∀ raw ∈ entries, ¬ Rule.IsUnshowable raw) ∧
        (ofDocument (.list entries)).value = .ok (entries.filterMap accepted?) := by
  by_cases h : ∃ raw ∈ entries, Rule.IsUnshowable raw
  · obtain ⟨fault, hfault⟩ := exists_error_ofEntries_iff.2 h
    cases fault
    exact .inl ⟨h, by rw [ofDocument, Noted.map, hfault]; rfl⟩
  · have hshown : ∀ raw ∈ entries, ¬ Rule.IsUnshowable raw :=
      fun raw hraw hlong => h ⟨raw, hraw, hlong⟩
    exact .inr ⟨hshown, by rw [ofDocument, Noted.map, value_ofEntries hshown]; rfl⟩

/-- **Reading keeps to the grammar.**  A document is read as a condition, an alternative or
a rule exactly if it describes one, and as that one.  Every other document is answered with
a fault, or by no rule; only a document that is no rule and holds an integer of too many
digits is answered as a rule with a fault.  A document has no problem as a rule exactly if
it has the form of one, and then it is read as one.  A list is read as the rules that its
entries describe, in order, unless one of them is such a document, and nothing but a list is
read as a table. -/
theorem reads_grammar (raw : Document) :
    ((∀ k, Condition.ofDocument raw = .ok k ↔ Condition.Describes raw k) ∧
      ((∃ fault, Condition.ofDocument raw = .error fault) ↔ ∀ k, ¬ Condition.Describes raw k)) ∧
    ((∀ a, Alternative.ofDocument raw = .ok a ↔ Alternative.Describes raw a) ∧
      ((∃ fault, Alternative.ofDocument raw = .error fault) ↔
        ∀ a, ¬ Alternative.Describes raw a)) ∧
    ((∀ r, (Rule.ofDocument raw).value = .ok (some r) ↔ Rule.Describes raw r) ∧
      ((∃ r, (Rule.ofDocument raw).value = .ok (some r)) ↔ Problem.check raw = .ok []) ∧
      (Problem.check raw = .ok [] ↔ ∃ find replace items, Rule.HasForm raw find replace items) ∧
      ((Rule.ofDocument raw).value = .ok none ↔
        (∀ find replace items, ¬ Rule.HasForm raw find replace items) ∧ raw.holdsLong = false) ∧
      ((∃ fault, (Rule.ofDocument raw).value = .error fault) ↔ Rule.IsUnshowable raw)) ∧
    ((∀ entries, raw = .list entries →
        (∃ raw ∈ entries, Rule.IsUnshowable raw) ∧
            (ofDocument raw).value = .error (.unshowable .tooLong) ∨
          (∀ raw ∈ entries, ¬ Rule.IsUnshowable raw) ∧
            ∃ table, (ofDocument raw).value = .ok table ∧ Picks Rule.Describes entries table) ∧
      ((∀ entries, raw ≠ .list entries) →
        (ofDocument raw).value = .error (.tableKind raw))) := by
  refine ⟨⟨fun k => Condition.ofDocument_eq_ok_iff,
      exists_error_iff fun k => Condition.ofDocument_eq_ok_iff⟩,
    ⟨fun a => Alternative.ofDocument_eq_ok_iff,
      exists_error_iff fun a => Alternative.ofDocument_eq_ok_iff⟩,
    ⟨fun r => Rule.value_ofDocument_eq_some_iff_describes, ?_, ?_,
      Rule.value_ofDocument_eq_none_iff, Rule.exists_error_ofDocument_iff⟩, ?_, ?_⟩
  · rw [Problem.check_eq_ok_nil_iff, Problem.ofRule_eq_nil_iff]
    constructor
    · rintro ⟨r, hr⟩
      obtain ⟨find, replace, items, hform, -⟩ := Rule.value_ofDocument_eq_some_iff.1 hr
      exact ⟨find, replace, items, hform⟩
    · rintro ⟨find, replace, items, hform⟩
      exact ⟨_, hform.value_ofDocument⟩
  · exact Problem.check_eq_ok_nil_iff.trans Problem.ofRule_eq_nil_iff
  · rintro entries rfl
    have hpicks : Picks Rule.Describes entries (entries.filterMap accepted?) :=
      (picks_iff fun _ _ =>
        accepted?_eq_some_iff.trans Rule.value_ofDocument_eq_some_iff_describes).2 rfl
    exact (value_ofDocument_list entries).imp_right fun h => ⟨h.1, _, h.2, hpicks⟩
  · intro hlist
    cases raw with
    | list entries => exact absurd rfl (hlist entries)
    | _ => rfl

open Document in
/-- One exclamation mark negates a condition, and with two there is none. -/
theorem reads_grammar_marks :
    let mark (s : Text) := map [(str "type", str "prefix"), (str "scope", str s)]
    Condition.Describes (mark "!vowel") ⟨.before, .letter .vowel, true, none⟩ ∧
      ∀ k, ¬ Condition.Describes (mark "!!vowel") k := by
  intro mark
  have hone : Condition.ofDocument (mark "!vowel") = .ok ⟨.before, .letter .vowel, true, none⟩ :=
    rfl
  have htwo : ∃ fault, Condition.ofDocument (mark "!!vowel") = .error fault := ⟨_, rfl⟩
  exact ⟨((reads_grammar (mark "!vowel")).1.1 _).1 hone,
    (reads_grammar (mark "!!vowel")).1.2.1 htwo⟩

/-- An integer of too many digits is no rule, and is answered with a fault in place of no
rule. -/
theorem reads_grammar_long :
    (∀ r, ¬ Rule.Describes (.int Numeral.leastLong) r) ∧
      (Rule.ofDocument (.int Numeral.leastLong)).value = .error .tooLong := by
  have hformless : ∀ find replace items,
      ¬ Rule.HasForm (.int Numeral.leastLong) find replace items := by
    rintro find replace items ⟨⟩
  have hlong : (Document.int Numeral.leastLong).holdsLong = true := Numeral.isLong_leastLong
  refine ⟨fun r hr => ?_, by rw [Rule.value_ofDocument_of_formless hformless, if_pos hlong]⟩
  obtain ⟨find, replace, items, hform, -⟩ := hr
  exact hformless find replace items hform

end RuleTable
end PhoneticBengali
