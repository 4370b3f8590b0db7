/-
# Writing whole files

A write either fails and leaves every regular file as it was, or it succeeds and
puts all its content into one place, and every other regular file is as it was
(`FileTree.written_whole_or_not`):

| the path then leads to | place of the content |
| --- | --- |
| a regular file | there |
| a directory | in it, under the name of the temporary file (`FileTree.writeLines_up`) |

The temporary file has a name that no entry has, so nothing is lost when it is made,
and everything is as before when it is taken away again.  What is complete is written
where there is room for it (`FileTree.write_of_hasRoom`).
-/

import Mathlib.Data.List.Nodup
import Mathlib.Data.List.Perm.Subperm
import PhoneticBengali.Proofs.Files.Growth
import PhoneticBengali.Proofs.Json.Pieces
import PhoneticBengali.Proofs.Text.Utf8

namespace PhoneticBengali
namespace FileTree

variable {t u v : FileTree} {p : Place} {name : Text}

/-! ### New names -/

/-- The length of a temporary name tells its number. -/
theorem length_temporaryName (name : Text) (number : Nat) :
    (temporaryName name number).length = name.length + number + 14 := by
  have hmark : (".tmp." : Text).length = 5 := rfl
  have hpoint : ("." : Text).length = 1 := rfl
  rw [temporaryName, List.length_append, List.length_append, List.length_append, hmark, hpoint,
    List.length_replicate]
  omega

/-- The candidates for a name are all different, as each is longer than those before it. -/
theorem temporaryName_injective (name : Text) : Function.Injective (temporaryName name) := by
  intro i j h
  have hlength := congrArg List.length h
  rw [length_temporaryName, length_temporaryName] at hlength
  omega

/-- What is tried in the end is one of the candidates. -/
theorem exists_newName (t : FileTree) (name : Text) (fuel number : Nat) :
    ∃ i, t.newName name fuel number = temporaryName name i := by
  induction fuel generalizing number with
  | zero => exact ⟨number, rfl⟩
  | succ fuel ih =>
    rw [newName]
    split
    · exact ih (number + 1)
    · exact ⟨number, rfl⟩

/-- Names have octets exactly if each of their characters has, and is not `U+0000`. -/
theorem nameFault?_eq_none_iff {names : List Text} : nameFault? names = none ↔
    (∀ name ∈ names, ∀ c ∈ name, c.isNameless = false) ∧
      ∀ name ∈ names, ∀ c ∈ name, c ≠ '\x00' := by
  have hoctets : (names.any (·.any (·.isNameless)) = true) ↔
      ¬ ∀ name ∈ names, ∀ c ∈ name, c.isNameless = false := by
    simp
  have hnull : (names.any (·.contains '\x00') = true) ↔
      ¬ ∀ name ∈ names, ∀ c ∈ name, c ≠ '\x00' := by
    simp
  rw [nameFault?]
  split
  · rename_i h
    exact ⟨nofun, fun hall => absurd hall.1 (hoctets.1 h)⟩
  · rename_i hsome
    split
    · rename_i h
      exact ⟨nofun, fun hall => absurd hall.2 (hnull.1 h)⟩
    · rename_i hnone
      exact ⟨fun _ => ⟨not_not.1 (mt hoctets.2 hsome), not_not.1 (mt hnull.2 hnone)⟩, fun _ => rfl⟩

/-- If the name is not new, then none of those that were tried is. -/
theorem hasName_of_newName {fuel number : Nat}
    (h : t.hasName (t.newName name fuel number) = true) {i : Nat} (hi : i ≤ fuel) :
    t.hasName (temporaryName name (number + i)) = true := by
  induction fuel generalizing number i with
  | zero =>
    obtain rfl := Nat.le_zero.1 hi
    exact h
  | succ fuel ih =>
    rw [newName] at h
    split at h
    · rename_i htaken
      cases i with
      | zero => exact htaken
      | succ i =>
        have hnext := ih h (Nat.le_of_succ_le_succ hi)
        rwa [Nat.add_right_comm, Nat.add_assoc] at hnext
    · exact absurd h ‹_›

/-- **A new name is found:** there are more candidates than entries. -/
theorem hasName_newName (t : FileTree) (name : Text) (number : Nat) :
    t.hasName (t.newName name t.entries.length number) = false := by
  cases h : t.hasName (t.newName name t.entries.length number) with
  | false => rfl
  | true =>
    let candidates := (List.range (t.entries.length + 1)).map fun i =>
      temporaryName name (number + i)
    have hinjective : Function.Injective fun i => temporaryName name (number + i) :=
      fun i j hij => Nat.add_left_cancel (temporaryName_injective name hij)
    have hnodup : candidates.Nodup := List.nodup_range.map hinjective
    have hsub : candidates ⊆ t.entries.filterMap fun e => e.1.getLast? := by
      intro candidate hcandidate
      obtain ⟨i, hi, rfl⟩ := List.mem_map.1 hcandidate
      have hi := Nat.lt_succ_iff.1 (List.mem_range.1 hi)
      obtain ⟨e, he, hname⟩ := List.any_eq_true.1 (hasName_of_newName h hi)
      exact List.mem_filterMap.2 ⟨e, he, of_decide_eq_true hname⟩
    have hle := (List.subperm_of_subset hnodup hsub).length_le
    have hfew := List.length_filterMap_le (fun e : Place × Entry => e.1.getLast?) t.entries
    simp only [candidates, List.length_map, List.length_range] at hle
    omega

/-- Nothing is at a place with a new name. -/
theorem get?_of_hasName {number : Nat} (h : t.hasName (temporaryName name number) = false)
    (dir : Place) :
    t.get? (dir ++ [temporaryName name number]) = none := by
  have hlong := length_temporaryName name number
  have htop : Place.isTop (dir ++ [temporaryName name number]) = false := by
    rw [Place.isTop, Bool.or_eq_false_iff, decide_eq_false_iff_not, List.all_eq_false]
    refine ⟨fun hroot => ?_, _, List.mem_append_right dir (List.mem_singleton_self _), ?_⟩
    · have hlast := congrArg List.getLast? hroot
      rw [List.getLast?_concat, List.getLast?_singleton, Option.some.injEq] at hlast
      simp [hlast, Path.rootName] at hlong
    · rw [decide_eq_true_iff]
      intro hup
      simp [hup, Path.upName] at hlong
  rw [get?, htop, if_neg Bool.false_ne_true, List.lookup_eq_none_iff]
  intro e he
  rw [bne_iff_ne]
  intro hplace
  have hnone := List.any_eq_false.1 h e he
  rw [← hplace, List.getLast?_concat] at hnone
  exact hnone (decide_eq_true rfl)

/-- The name of a path is empty or one of its names. -/
theorem name_eq_nil_or_mem (path : Path) : path.name = [] ∨ path.name ∈ path.names := by
  rw [Path.name]
  split
  · exact .inl rfl
  · cases hnames : path.names with
    | nil => exact .inl rfl
    | cons first rest =>
      rw [List.getLastD_eq_getLast?, List.getLast?_eq_some_getLast (List.cons_ne_nil _ _)]
      exact .inr (List.getLast_mem _)

/-- What is wrong with the name of a temporary file is wrong with the name that it is made
of, and so with the path. -/
theorem nameFault?_temporaryName {path : Path} (h : nameFault? path.names = none) (number : Nat) :
    nameFault? [temporaryName path.name number] = none := by
  obtain ⟨hoctets, hnull⟩ := nameFault?_eq_none_iff.1 h
  have hname : ∀ c ∈ path.name, c.isNameless = false ∧ c ≠ '\x00' := by
    intro c hc
    rcases name_eq_nil_or_mem path with hnil | hmem
    · rw [hnil] at hc
      cases hc
    · exact ⟨hoctets _ hmem c hc, hnull _ hmem c hc⟩
  have hmark : ∀ c ∈ (".tmp." : Text), c.isNameless = false ∧ c ≠ '\x00' := by decide
  have hpoint : ∀ c ∈ ("." : Text), c.isNameless = false ∧ c ≠ '\x00' := by decide
  have hletter : ∀ c ∈ List.replicate (8 + number) ('x' : CodePoint),
      c.isNameless = false ∧ c ≠ '\x00' := by
    intro c hc
    obtain rfl := List.eq_of_mem_replicate hc
    decide
  have hall : ∀ c ∈ temporaryName path.name number, c.isNameless = false ∧ c ≠ '\x00' :=
    List.forall_mem_append.2 ⟨List.forall_mem_append.2
      ⟨List.forall_mem_append.2 ⟨hmark, hname⟩, hpoint⟩, hletter⟩
  exact nameFault?_eq_none_iff.2
    ⟨List.forall_mem_singleton.2 fun c hc => (hall c hc).1,
      List.forall_mem_singleton.2 fun c hc => (hall c hc).2⟩

/-! ### The temporary file -/

/-- A file made where there was nothing, and taken away again. -/
theorem get?_set_erase (hp : t.get? p = none) (e : Entry) (q : Place) :
    ((t.set p e).erase p).get? q = t.get? q := by
  have htop := isTop_of_get?_eq_none hp
  rw [get?_erase _ _ _ htop, get?_set _ _ _ _ htop]
  split
  · rename_i heq
    rw [heq, hp]
  · rfl

/-- A file made where there was nothing, and moved away. -/
theorem get?_set_rename (hp : t.get? p = none) (e : Entry) {target : Place}
    (htarget : target.isTop = false) (q : Place) :
    ((t.set p e).rename p target).get? q = if q = target then some e else t.get? q := by
  have htop := isTop_of_get?_eq_none hp
  have hsource : (t.set p e).get? p = some e := by rw [get?_set _ _ _ _ htop, if_pos rfl]
  rw [rename, hsource]
  dsimp only
  rw [get?_set _ _ _ _ htarget, get?_set_erase hp]

/-! ### Writes -/

/-- The place is where the path leads, or, if a directory stands there, one in it that
is new and has the name of a temporary file. -/
def Receives (t u : FileTree) (path : Path) (p : Place) : Prop :=
  u.locate path = .ok p ∨ ∃ dir number, u.locate path = .ok dir ∧
    u.get? dir = some .directory ∧ p = dir ++ [temporaryName path.name number] ∧
      t.get? p = none

/-- From `t` to `u` nothing but the regular file at `p`, which receives what is written
to the path, was written. -/
structure Puts (t u : FileTree) (path : Path) (content : Utf8.Octets) (p : Place) : Prop where
  content : u.content? p = some content
  others : ∀ q, q ≠ p → u.content? q = t.content? q
  place : t.Receives u path p

/-- Where the path leads to no directory, what received the content is the file at the
path. -/
theorem Receives.read {path : Path} {content : Utf8.Octets} (h : t.Receives u path p)
    (hcontent : u.content? p = some content) (hpath : u.isDirectory path = false) :
    u.read path = .ok content := by
  obtain hplace | ⟨dir, number, hlocate, hdir, -, -⟩ := h
  · exact read_eq_ok hplace hcontent
  · have hfind : u.find path = .ok .directory := by
      simp only [find, hlocate, bind, Except.bind, hdir]
      rfl
    simp [isDirectory, hfind] at hpath

/-- A temporary file moved to where no directory is. -/
theorem growsTo_set_rename {target : Place} (content : Utf8.Octets) (hp : t.get? p = none)
    (htarget : t.get? target ≠ some .directory) :
    t.GrowsTo ((t.set p (.file content)).rename p target) [target] ∧
      ((t.set p (.file content)).rename p target).content? target = some content := by
  have hmoved := get?_set_rename hp (.file content) (isTop_eq_false htarget)
  exact ⟨.of_file htarget hmoved, content?_eq_some_iff.2 ((hmoved target).trans (if_pos rfl))⟩

/-- A temporary file moved to a path is where the path leads, or in the directory
there. -/
theorem puts_of_move {path : Path} {dir : Place} {number : Nat} {content : Utf8.Octets}
    (hnew : t.hasName (temporaryName path.name number) = false)
    (h : (t.set (dir ++ [temporaryName path.name number]) (.file content)).move
      (dir ++ [temporaryName path.name number]) (temporaryName path.name number) path = .ok u) :
    ∃ p, t.GrowsTo u [p] ∧ t.Puts u path content p := by
  have hnone := get?_of_hasName hnew dir
  have hfile : t.get? (dir ++ [temporaryName path.name number]) ≠ some .directory := by
    simp [hnone]
  have hmade := GrowsTo.set_file hfile content
  -- the temporary file is no directory, so all directories on the way are those of `t`
  have hdirectory : ∀ q, (t.set (dir ++ [temporaryName path.name number]) (.file content)).get? q =
      some .directory → t.get? q = some .directory := by
    intro q hq
    rw [get?_set _ _ _ _ (isTop_of_get?_eq_none hnone)] at hq
    split at hq
    · cases hq
    · exact hq
  unfold move at h
  split at h
  · cases h
  · rename_i target hlocate
    split at h
    · rename_i hdir
      dsimp only at h
      split at h
      · cases h
      · obtain rfl := Except.ok.inj h
        have hinside := get?_of_hasName hnew target
        obtain ⟨hgrows, hcontent⟩ := growsTo_set_rename content hnone
          (show t.get? (target ++ [temporaryName path.name number]) ≠ some .directory by
            simp [hinside])
        have hlocate := hgrows.locate (locate_of_directory hdirectory hlocate)
        have hdir := hgrows.directory target (hdirectory target hdir)
        exact ⟨_, hgrows, hcontent, fun q hq => hgrows.content q (by simpa using hq),
          .inr ⟨target, number, hlocate, hdir, rfl, hinside⟩⟩
    · rename_i hdir
      obtain rfl := Except.ok.inj h
      obtain ⟨hgrows, hcontent⟩ := growsTo_set_rename content hnone
        (show t.get? target ≠ some .directory from fun h => hdir (hmade.directory target h))
      have hlocate := hgrows.locate (locate_of_directory hdirectory hlocate)
      exact ⟨_, hgrows, hcontent, fun q hq => hgrows.content q (by simpa using hq),
        .inl hlocate⟩

/-- What receives is where the path leads ever after. -/
theorem Receives.later {written : List Place} {path : Path} (h : t.Receives u path p)
    (hgrows : u.GrowsTo v written) : t.Receives v path p := by
  obtain hlocate | ⟨dir, number, hlocate, hdir, hp, hnone⟩ := h
  · exact .inl (hgrows.locate hlocate)
  · exact .inr ⟨dir, number, hgrows.locate hlocate, hgrows.directory dir hdir, hp, hnone⟩

/-- A file that is new in a later tree is new. -/
theorem Receives.of_growsTo {written : List Place} (hgrows : t.GrowsTo v written) {path : Path}
    (h : v.Receives u path p) : t.Receives u path p :=
  h.imp_right fun ⟨dir, number, hlocate, hdir, hp, hnone⟩ =>
    ⟨dir, number, hlocate, hdir, hp, hgrows.get?_eq_none hnone⟩

section Write

variable {α : Type} {draft : Draft α} {path : Path}

/-- **A write fails without a trace, or puts all of its draft into one place.** -/
theorem write_cases (t : FileTree) (path : Path) (draft : Draft α) :
    (∃ fault, (t.write path draft).result = .error fault ∧
      t.GrowsTo (t.write path draft).files []) ∨
    (∃ a p, draft.result = .ok a ∧ (t.write path draft).result = .ok a ∧
      t.GrowsTo (t.write path draft).files [p] ∧
      t.Puts (t.write path draft).files path draft.content p) := by
  have hparent := t.growsTo_ensureParent path
  unfold write
  split
  · rename_i fault u hu
    rw [hu] at hparent
    exact .inl ⟨_, rfl, hparent⟩
  · rename_i u hu
    rw [hu] at hparent
    split
    · exact .inl ⟨_, rfl, hparent⟩
    · rename_i dir hdir
      obtain ⟨number, hname⟩ := u.exists_newName path.name u.entries.length 0
      have hnew := u.hasName_newName path.name 0
      have hnone : u.get? (dir ++ [u.newName path.name u.entries.length 0]) = none := by
        rw [hname] at hnew ⊢
        exact get?_of_hasName hnew dir
      dsimp only
      split
      · exact .inl ⟨_, rfl, hparent⟩
      split
      · exact .inl ⟨_, rfl, hparent⟩
      · have hleft := hparent.trans (.of_get?_eq (get?_set_erase hnone (.file draft.content)))
        split
        · exact .inl ⟨_, rfl, hleft⟩
        · rename_i a ha
          split
          · exact .inl ⟨_, rfl, hleft⟩
          · rename_i v hv
            rw [hname] at hnew hv
            obtain ⟨p, hgrows, hputs⟩ := puts_of_move hnew hv
            refine .inr ⟨a, p, ha, rfl, hparent.trans hgrows, hputs.content, fun q hq => ?_,
              hputs.place.of_growsTo hparent⟩
            rw [hputs.others q hq, hparent.content q List.not_mem_nil]

/-- A complete draft is refused by the file system alone. -/
theorem exists_file_of_write_eq_error {a : α} (hdraft : draft.result = .ok a)
    {fault : WriteFault} (h : (t.write path draft).result = .error fault) :
    ∃ f, fault = .file f := by
  unfold write at h
  split at h
  · exact ⟨_, (Except.error.inj h).symm⟩
  · split at h
    · exact ⟨_, (Except.error.inj h).symm⟩
    · dsimp only at h
      split at h
      · exact ⟨_, (Except.error.inj h).symm⟩
      split at h
      · exact ⟨_, (Except.error.inj h).symm⟩
      · rw [hdraft] at h
        dsimp only at h
        split at h
        · exact ⟨_, (Except.error.inj h).symm⟩
        · cases h

end Write

/-! ### Room for a file -/

/-- There is room for a file at a path: its directory is there, the path leads to where no
directory stands, and the name of the temporary file is not too long. -/
structure HasRoom (t : FileTree) (path : Path) : Prop where
  parent : t.isDirectory path.parent = true
  place : ∃ p, t.locate path = .ok p ∧ t.get? p ≠ some .directory
  name : (Utf8.encode (t.newName path.name t.entries.length 0)).length ≤ nameLimit

/-- A path that leads somewhere has octets for its names. -/
theorem nameFault?_of_locate {path : Path} (h : t.locate path = .ok p) :
    nameFault? path.names = none := by
  rw [locate] at h
  split at h
  · cases h
  · assumption

/-- A directory is at a path exactly if one is where the path leads. -/
theorem isDirectory_iff {path : Path} :
    t.isDirectory path = true ↔ ∃ p, t.locate path = .ok p ∧ t.get? p = some .directory := by
  cases hlocate : t.locate path with
  | error cause => simp [isDirectory, find, hlocate, bind, Except.bind]
  | ok p =>
    cases hget : t.get? p with
    | none => simp [isDirectory, find, hlocate, hget, bind, Except.bind, throw, throwThe,
        MonadExceptOf.throw]
    | some e =>
      cases e <;> simp [isDirectory, find, hlocate, hget, bind, Except.bind, pure, Except.pure]

/-- Directories that are there need not be made. -/
theorem ensureParent_of_isDirectory {path : Path} (h : t.isDirectory path.parent = true) :
    t.ensureParent path = ⟨.ok (), t⟩ := by
  obtain ⟨p, hlocate, hget⟩ := isDirectory_iff.1 h
  rw [ensureParent]
  cases hnames : path.parent.names.reverse with
  | nil => rfl
  | cons name above =>
    have hpath : (⟨(name :: above).reverse⟩ : Path) = path.parent := by
      rw [← hnames, List.reverse_reverse]
    have hthere : t.ensureDirectory path.parent = .ok t := by
      rw [ensureDirectory, makeDirectory, hlocate]
      dsimp only
      rw [hget]
      exact if_pos h
    rw [ensureDirectories, hpath, hthere]

/-- **Where there is room, a complete draft is written.** -/
theorem write_of_hasRoom {α : Type} {path : Path} (h : t.HasRoom path) (content : Utf8.Octets)
    (a : α) : (t.write path ⟨content, .ok a⟩).result = .ok a := by
  obtain ⟨hparent, ⟨target, htarget, hfree⟩, hname⟩ := h
  obtain ⟨dir, hdir, -⟩ := isDirectory_iff.1 hparent
  obtain ⟨number, hnumber⟩ := t.exists_newName path.name t.entries.length 0
  have hnew := t.hasName_newName path.name 0
  rw [hnumber] at hnew
  have hnone := get?_of_hasName hnew dir
  have hmade : t.GrowsTo (t.set (dir ++ [temporaryName path.name number]) (.file content)) _ :=
    .set_file (by simp [hnone]) content
  have hlocate := hmade.locate htarget
  have hstill : (t.set (dir ++ [temporaryName path.name number]) (.file content)).get? target ≠
      some .directory := by
    rw [get?_set _ _ _ _ (isTop_of_get?_eq_none hnone)]
    split
    · nofun
    · exact hfree
  rw [write, ensureParent_of_isDirectory hparent]
  dsimp only
  rw [hdir]
  dsimp only
  rw [if_neg (Nat.not_lt.2 hname), hnumber, nameFault?_temporaryName (nameFault?_of_locate htarget),
    move, hlocate]
  dsimp only
  rw [if_neg hstill]

end FileTree

/-! ### Lines and documents -/

namespace Draft

variable {α : Type}

/-- A text that has a form in UTF-8 is written in front of a draft. -/
theorem behind_of_isEncodable {t : Text} (h : Utf8.isEncodable t = true) (draft : Draft α) :
    behind t draft = ⟨Utf8.encode t ++ draft.content, draft.result⟩ := by
  rw [behind, Utf8.encodeFault?_eq_none_iff.2 h]

/-- One that has none is a fault. -/
theorem behind_of_not_isEncodable {t : Text} (h : Utf8.isEncodable t = false) (draft : Draft α) :
    ∃ fault, behind t draft = failed (.encoding fault) := by
  rw [behind]
  cases hfault : Utf8.encodeFault? t with
  | some fault => exact ⟨fault, rfl⟩
  | none =>
    rw [Utf8.encodeFault?_eq_none_iff.1 hfault] at h
    cases h

/-- So a text is written if nothing fails. -/
theorem isEncodable_of_behind {t : Text} {draft : Draft α} {a : α}
    (h : (behind t draft).result = .ok a) : Utf8.isEncodable t = true := by
  cases ht : Utf8.isEncodable t with
  | true => rfl
  | false =>
    obtain ⟨fault, hfault⟩ := behind_of_not_isEncodable ht draft
    rw [hfault] at h
    cases h

/-- A complete draft of lines has a text for each of them. -/
theorem ofLines_eq_ok {lines : List Document} {n : Nat} (h : (ofLines lines).result = .ok n) :
    n = lines.length ∧ ∃ texts : List Text, lines = texts.map .str ∧
      Utf8.isEncodable (Text.unlines texts) = true ∧
      (ofLines lines).content = Utf8.encode (Text.unlines texts) := by
  fun_induction ofLines lines generalizing n with
  | case1 =>
    obtain rfl := Except.ok.inj h
    exact ⟨rfl, [], rfl, rfl, rfl⟩
  | case2 s rest others =>
    rename_i ih
    have hs := isEncodable_of_behind h
    rw [behind_of_isEncodable hs] at h ⊢
    change (ofLines rest).result.map (· + 1) = .ok n at h
    cases hrest : (ofLines rest).result with
    | error fault =>
      rw [hrest] at h
      cases h
    | ok m =>
      rw [hrest] at h
      obtain rfl := Except.ok.inj h
      obtain ⟨rfl, texts, rfl, hencodable, hcontent⟩ := ih hrest
      refine ⟨rfl, s :: texts, rfl, ?_, ?_⟩
      · exact (Utf8.isEncodable_append _ _).trans (Bool.and_eq_true_iff.2 ⟨hs, hencodable⟩)
      · exact (congrArg (Utf8.encode (s ++ "\n") ++ ·) hcontent).trans
          (Utf8.encode_append _ _).symm
  | case3 line rest hline => cases h

/-- Pieces of a text that has a form in UTF-8 make up a complete draft of it. -/
theorem ofPieces_of_makes {ps : List Json.Piece} {t : Text} (h : Json.Makes ps t)
    (ht : Utf8.isEncodable t = true) : ofPieces ps = ⟨Utf8.encode t, .ok ()⟩ := by
  obtain ⟨ts, rfl, rfl⟩ := h
  induction ts with
  | nil => rfl
  | cons u ts ih =>
    rw [List.flatten_cons, Utf8.isEncodable_append, Bool.and_eq_true] at ht
    rw [List.map_cons, ofPieces, ih ht.2, behind_of_isEncodable ht.1, List.flatten_cons,
      Utf8.encode_append]

/-- Those of a text that has none do not. -/
theorem ofPieces_of_makes_not {ps : List Json.Piece} {t : Text} (h : Json.Makes ps t)
    (ht : Utf8.isEncodable t = false) :
    ∃ fault, (ofPieces ps).result = .error (.encoding fault) := by
  obtain ⟨ts, rfl, rfl⟩ := h
  induction ts with
  | nil => cases ht
  | cons u ts ih =>
    rw [List.map_cons, ofPieces]
    cases hu : Utf8.isEncodable u with
    | false =>
      obtain ⟨fault, hfault⟩ := behind_of_not_isEncodable hu (ofPieces (ts.map .ok))
      exact ⟨fault, by rw [hfault]; rfl⟩
    | true =>
      rw [List.flatten_cons, Utf8.isEncodable_append, hu, Bool.true_and] at ht
      rw [behind_of_isEncodable hu]
      exact ih ht

/-- A draft breaks off at the first faulty piece, or before it. -/
theorem firstFault?_of_ofPieces {ps : List Json.Piece} {x : Unit}
    (h : (ofPieces ps).result = .ok x) : Json.firstFault? ps = none := by
  induction ps with
  | nil => rfl
  | cons p ps ih =>
    cases p with
    | error fault => cases h
    | ok t =>
      rw [ofPieces, behind_of_isEncodable (isEncodable_of_behind h)] at h
      exact ih h

/-- A complete draft of a document is its JSON text. -/
theorem ofJson_eq_ok {indentation d : Document} {x : Unit}
    (h : (ofJson indentation d).result = .ok x) :
    ∃ layout, Json.Layout.ofDocument? indentation = some layout ∧ Json.hasForm d ∧
      Utf8.isEncodable (Json.encode layout d) = true ∧
      (ofJson indentation d).content = Utf8.encode (Json.encode layout d) := by
  unfold ofJson at h ⊢
  split at h
  · cases h
  · rename_i layout hlayout
    have hform : Json.formFault? d = none :=
      (Json.firstFault?_pieces 0 d).symm.trans (firstFault?_of_ofPieces h)
    have hmakes : Json.Makes (Json.pieces layout 0 d) (Json.encode layout d) :=
      Json.makes_pieces 0 d hform
    cases hencodable : Utf8.isEncodable (Json.encode layout d) with
    | true =>
      refine ⟨layout, hlayout, by rw [Json.hasForm, hform, Option.isNone_none], hencodable, ?_⟩
      rw [ofPieces_of_makes hmakes hencodable]
    | false =>
      obtain ⟨fault, hfault⟩ := ofPieces_of_makes_not hmakes hencodable
      rw [hfault] at h
      cases h

end Draft

namespace FileTree

/-- **Lines, and documents as JSON, are written whole or not at all.**  A write that
fails leaves every regular file as it was, and no new one.  One that succeeds puts the
whole content, which has a form in UTF-8, into one place and leaves all others as they were;
unless the path leads to a directory, that place is where it leads. -/
theorem written_whole_or_not (t : FileTree) (path : Path) :
    (∀ lines, let change := t.writeLines path lines
      (∃ fault, change.result = .error fault ∧
        ∀ p, change.files.content? p = t.content? p) ∨
      (change.result = .ok lines.length ∧ ∃ texts : List Text, lines = texts.map .str ∧
        Utf8.isEncodable (Text.unlines texts) = true ∧
        let content := Utf8.encode (Text.unlines texts)
        (∃ p, t.Puts change.files path content p) ∧
          (change.files.isDirectory path = false → change.files.read path = .ok content))) ∧
    (∀ indentation d, let change := t.writeJson path indentation d
      (∃ fault, change.result = .error fault ∧
        ∀ p, change.files.content? p = t.content? p) ∨
      (change.result = .ok () ∧ ∃ layout, Json.Layout.ofDocument? indentation = some layout ∧
        Json.hasForm d ∧ Utf8.isEncodable (Json.encode layout d) = true ∧
        let content := Utf8.encode (Json.encode layout d)
        (∃ p, t.Puts change.files path content p) ∧
          (change.files.isDirectory path = false → change.files.read path = .ok content))) := by
  refine ⟨fun lines => ?_, fun indentation d => ?_⟩
  · obtain ⟨fault, hfault, hgrows⟩ | ⟨n, p, hdraft, hresult, -, hputs⟩ :=
      t.write_cases path (.ofLines lines)
    · exact .inl ⟨fault, hfault, fun p => hgrows.content p List.not_mem_nil⟩
    · obtain ⟨rfl, texts, htexts, hencodable, hcontent⟩ := Draft.ofLines_eq_ok hdraft
      rw [hcontent] at hputs
      exact .inr ⟨hresult, texts, htexts, hencodable, ⟨p, hputs⟩,
        hputs.place.read hputs.content⟩
  · obtain ⟨fault, hfault, hgrows⟩ | ⟨_, p, hdraft, hresult, -, hputs⟩ :=
      t.write_cases path (.ofJson indentation d)
    · exact .inl ⟨fault, hfault, fun p => hgrows.content p List.not_mem_nil⟩
    · obtain ⟨layout, hlayout, hform, hencodable, hcontent⟩ := Draft.ofJson_eq_ok hdraft
      rw [hcontent] at hputs
      exact .inr ⟨hresult, layout, hlayout, hform, hencodable, ⟨p, hputs⟩,
        hputs.place.read hputs.content⟩

/-- A write to the directory above succeeds, and leaves a temporary file in it. -/
theorem writeLines_up :
    let path := Path.ofText ".."
    let left : Place := [Path.upName, temporaryName Path.upName 0]
    let change := ({} : FileTree).writeLines path [.str "x"]
    change.result.toOption = some 1 ∧ change.files.isDirectory path = true ∧
      ({} : FileTree).content? left = none ∧
      change.files.content? left = some (Utf8.encode "x\n") := by
  decide +kernel

end FileTree
end PhoneticBengali
