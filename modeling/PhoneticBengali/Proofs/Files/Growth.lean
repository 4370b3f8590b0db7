/-
# How files change

Whatever is done to files, directories are only made, and regular files are only
written: nothing is taken away, and nothing turns from the one into the other.  So
the change from a tree to a later one is described by the places that were written
(`FileTree.GrowsTo`).

| operation | writes |
| --- | --- |
| making directories | nothing |
| opening a file to append to it | the place of the file, if it was not there |
| appending | the place of the file |

A path that leads somewhere leads to the same place ever after
(`FileTree.GrowsTo.locate`).
-/

import PhoneticBengali.Files.Write

namespace PhoneticBengali
namespace FileTree

variable {t u v : FileTree} {p : Place} {written later : List Place}

/-- A content is that of a file at the place. -/
theorem content?_eq_some_iff {content : Utf8.Octets} :
    t.content? p = some content ↔ t.get? p = some (.file content) := by
  unfold content?
  split
  · rename_i c hc
    rw [hc, Option.some.injEq, Option.some.injEq, Entry.file.injEq]
  · rename_i hfile
    exact ⟨nofun, fun h => absurd h (hfile content)⟩

/-- What a path leads to is read, if it is a regular file. -/
theorem read_eq_ok {path : Path} {content : Utf8.Octets} (hlocate : t.locate path = .ok p)
    (h : t.content? p = some content) : t.read path = .ok content := by
  simp only [read, find, hlocate, bind, Except.bind, content?_eq_some_iff.1 h]
  rfl

/-- The content of a place depends on what stands there alone. -/
theorem content?_congr (h : u.get? p = t.get? p) : u.content? p = t.content? p := by
  rw [content?, content?, h]

/-- A place that can hold something else than a directory is no top. -/
theorem isTop_eq_false (h : t.get? p ≠ some .directory) : p.isTop = false := by
  cases htop : p.isTop with
  | false => rfl
  | true => exact absurd (if_pos htop) h

/-- Where nothing stands is no top. -/
theorem isTop_of_get?_eq_none (h : t.get? p = none) : p.isTop = false :=
  isTop_eq_false (t := t) (by simp [h])

/-! ### Ways -/

section Ways

variable (h : ∀ p, t.get? p = some .directory → u.get? p = some .directory)
include h

/-- A way goes through directories only. -/
theorem walk_of_directory {here : Place} {names : List Text}
    (hwalk : t.walk here names = .ok p) : u.walk here names = .ok p := by
  induction names generalizing here with
  | nil => exact hwalk
  | cons name rest ih =>
    rw [walk] at hwalk ⊢
    split at hwalk
    · rename_i hup
      rw [if_pos hup]
      exact ih hwalk
    · rename_i hup
      rw [if_neg hup]
      split at hwalk
      · cases hwalk
      · rename_i hlength
        rw [if_neg hlength]
        dsimp only at hwalk ⊢
        split at hwalk
        · exact hwalk
        · rename_i hrest hdir
          rw [h _ hdir]
          split
          · exact absurd rfl hrest
          · exact ih hwalk
          · rename_i hkind
            cases hkind
          · contradiction
        · cases hwalk
        · cases hwalk

/-- A path that led to a place leads there still if no directory is lost. -/
theorem locate_of_directory {path : Path} (hlocate : t.locate path = .ok p) :
    u.locate path = .ok p := by
  rw [locate] at hlocate ⊢
  cases hnames : nameFault? path.names with
  | some cause =>
    rw [hnames] at hlocate
    cases hlocate
  | none =>
    rw [hnames] at hlocate
    exact walk_of_directory h hlocate

end Ways

/-! ### Growth -/

/-- From `t` to `u` directories were made, and regular files were written at some
places only. -/
structure GrowsTo (t u : FileTree) (written : List Place) : Prop where
  directory : ∀ p, t.get? p = some .directory → u.get? p = some .directory
  file : ∀ p, (t.content? p).isSome → (u.content? p).isSome
  content : ∀ p, p ∉ written → u.content? p = t.content? p

namespace GrowsTo

/-- A tree with the same at every place has grown by nothing. -/
theorem of_get?_eq (h : ∀ p, u.get? p = t.get? p) : t.GrowsTo u [] where
  directory p hp := (h p).trans hp
  file p hp := (content?_congr (h p)).symm ▸ hp
  content p _ := content?_congr (h p)

/-- Every tree has grown from itself. -/
theorem refl (t : FileTree) : t.GrowsTo t [] :=
  of_get?_eq fun _ => rfl

/-- A tree that grows twice has grown by both. -/
theorem trans (h : t.GrowsTo u written) (h' : u.GrowsTo v later) :
    t.GrowsTo v (written ++ later) where
  directory p hp := h'.directory p (h.directory p hp)
  file p hp := h'.file p (h.file p hp)
  content p hp := by
    rw [List.mem_append, not_or] at hp
    rw [h'.content p hp.2, h.content p hp.1]

/-- Growth by some files is growth by more. -/
theorem mono (h : t.GrowsTo u written) (hsub : written ⊆ later) : t.GrowsTo u later where
  directory := h.directory
  file := h.file
  content p hp := h.content p fun hmem => hp (hsub hmem)

/-- Where there was nothing, a directory is made. -/
theorem of_directory (hp : t.get? p = none)
    (h : ∀ q, u.get? q = if q = p then some .directory else t.get? q) : t.GrowsTo u [] := by
  have hnone : t.content? p = none := by rw [content?, hp]
  have hmade : u.content? p = none := by rw [content?, h p, if_pos rfl]
  have hother : ∀ q, q ≠ p → u.get? q = t.get? q := fun q hq => by rw [h q, if_neg hq]
  have hcontent : ∀ q, u.content? q = t.content? q := by
    intro q
    by_cases hq : q = p
    · rw [hq, hmade, hnone]
    · exact content?_congr (hother q hq)
  refine ⟨fun q hdir => ?_, fun q hq => hcontent q ▸ hq, fun q _ => hcontent q⟩
  by_cases hq : q = p
  · rw [h q, if_pos hq]
  · rw [hother q hq, hdir]

/-- Where there was no directory, a regular file is written. -/
theorem of_file {content : Utf8.Octets} (hp : t.get? p ≠ some .directory)
    (h : ∀ q, u.get? q = if q = p then some (.file content) else t.get? q) :
    t.GrowsTo u [p] := by
  have hwritten : u.content? p = some content := by
    rw [content?_eq_some_iff, h p, if_pos rfl]
  have hother : ∀ q, q ≠ p → u.get? q = t.get? q := fun q hq => by rw [h q, if_neg hq]
  refine ⟨fun q hdir => ?_, fun q hfile => ?_, fun q hq => ?_⟩
  · by_cases hq : q = p
    · exact absurd (hq ▸ hdir) hp
    · rw [hother q hq, hdir]
  · by_cases hq : q = p
    · rw [hq, hwritten, Option.isSome_some]
    · rw [content?_congr (hother q hq)]
      exact hfile
  · exact content?_congr (hother q fun heq => hq (heq ▸ List.mem_singleton_self p))

/-- A new directory is growth. -/
theorem set_directory (hp : t.get? p = none) : t.GrowsTo (t.set p .directory) [] :=
  of_directory hp fun q => t.get?_set p q _ (isTop_of_get?_eq_none hp)

/-- A file in place of a file, or of nothing, is growth by it. -/
theorem set_file (hp : t.get? p ≠ some .directory) (content : Utf8.Octets) :
    t.GrowsTo (t.set p (.file content)) [p] :=
  of_file hp fun q => t.get?_set p q _ (isTop_eq_false hp)

/-- What is not there after growth was not there before. -/
theorem get?_eq_none (h : t.GrowsTo u written) (hp : u.get? p = none) : t.get? p = none := by
  cases hentry : t.get? p with
  | none => rfl
  | some e =>
    cases e with
    | directory =>
      have hdir := h.directory p hentry
      rw [hp] at hdir
      cases hdir
    | file content =>
      have hfile := h.file p (by rw [content?_eq_some_iff.2 hentry, Option.isSome_some])
      rw [content?, hp] at hfile
      cases hfile

/-- A path that leads somewhere leads to the same place ever after. -/
theorem locate (h : t.GrowsTo u written) {path : Path} (hlocate : t.locate path = .ok p) :
    u.locate path = .ok p :=
  locate_of_directory h.directory hlocate

end GrowsTo

/-! ### Directories -/

/-- To make one directory is growth that writes nothing. -/
theorem GrowsTo.makeDirectory {path : Path} (h : t.makeDirectory path = .ok u) :
    t.GrowsTo u [] := by
  unfold FileTree.makeDirectory at h
  split at h
  · cases h
  · split at h
    · cases h
    · rename_i p _ hp
      obtain rfl := Except.ok.inj h
      exact .set_directory (Option.not_isSome_iff_eq_none.1 hp)

/-- To make sure of a directory is growth that writes nothing. -/
theorem GrowsTo.ensureDirectory {path : Path} (h : t.ensureDirectory path = .ok u) :
    t.GrowsTo u [] := by
  unfold FileTree.ensureDirectory at h
  split at h
  · rename_i v hmade
    obtain rfl := Except.ok.inj h
    exact .makeDirectory hmade
  · split at h
    · obtain rfl := Except.ok.inj h
      exact .refl t
    · cases h

/-- Directories on the way to a path are made, and stay made if one cannot be. -/
theorem growsTo_ensureDirectories (t : FileTree) (names : List Text) :
    t.GrowsTo (t.ensureDirectories names).files [] := by
  induction names generalizing t with
  | nil => exact .refl t
  | cons name above ih =>
    rw [ensureDirectories]
    split
    · rename_i u hu
      exact .ensureDirectory hu
    · split
      · split
        · rename_i u hu
          have hgrows : t.GrowsTo u [] := by simpa [hu] using ih t
          split
          · rename_i v hv
            exact hgrows.trans (.ensureDirectory hv)
          · exact hgrows
        · exact ih t
      · exact .refl t

/-- To make sure of the directories above a path is growth, even if that fails on the way.
-/
theorem growsTo_ensureParent (t : FileTree) (path : Path) :
    t.GrowsTo (t.ensureParent path).files [] :=
  t.growsTo_ensureDirectories _

/-! ### Appending -/

/-- What is opened to append to it is a regular file where the path leads, and keeps what
it holds. -/
theorem openAppending_eq_ok {path : Path} (h : t.openAppending path = .ok (p, u)) :
    t.locate path = .ok p ∧ t.GrowsTo u [p] ∧ u.content? p = some ((t.content? p).getD []) := by
  unfold openAppending at h
  split at h
  · cases h
  · rename_i q hlocate
    split at h
    · cases h
    · rename_i content hq
      obtain ⟨rfl, rfl⟩ := Prod.mk.inj (Except.ok.inj h)
      refine ⟨hlocate, (GrowsTo.refl t).mono (List.nil_subset _), ?_⟩
      rw [content?_eq_some_iff.2 hq, Option.getD_some]
    · rename_i hq
      obtain ⟨rfl, rfl⟩ := Prod.mk.inj (Except.ok.inj h)
      have hdir : t.get? q ≠ some .directory := by simp [hq]
      refine ⟨hlocate, .set_file hdir [], ?_⟩
      have hset := t.get?_set q q (.file []) (isTop_eq_false hdir)
      rw [content?_eq_some_iff.2 (hset.trans (if_pos rfl)), content?, hq, Option.getD_none]

/-- To write at the end of a file is growth by that file. -/
theorem growsTo_append (hp : (t.content? p).isSome) (text : Text) :
    t.GrowsTo (t.append p text) [p] := by
  obtain ⟨content, hcontent⟩ := Option.isSome_iff_exists.1 hp
  refine .set_file ?_ _
  rw [content?_eq_some_iff.1 hcontent]
  exact nofun

/-- And the file then holds what was written behind what it held. -/
theorem content?_append {content : Utf8.Octets} (h : t.content? p = some content) (text : Text) :
    (t.append p text).content? p = some (content ++ Utf8.encode text) := by
  have htop : p.isTop = false :=
    isTop_eq_false (t := t) (by rw [content?_eq_some_iff.1 h]; nofun)
  have hset := (get?_set t p p (.file (content ++ Utf8.encode text)) htop).trans (if_pos rfl)
  rw [append, h, Option.getD_some]
  exact content?_eq_some_iff.2 hset

end FileTree
end PhoneticBengali
