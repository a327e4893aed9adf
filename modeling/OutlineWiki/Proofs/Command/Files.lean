import OutlineWiki.Command.Files
import Mathlib.Data.List.Basic

/-!
Reading and writing in a list of files.

A write that succeeds changes the content of one file and nothing else. That file is the
one that its path leads to, or would lead to, and it is what the same path leads to
afterwards, however the path is spelled.
-/

namespace OutlineWiki

/-- A text is read back from its own bytes. -/
theorem fromUTF8?_toUTF8 (text : String) : String.fromUTF8? text.toUTF8 = some text := by
  simp only [String.fromUTF8?, String.toUTF8_eq_toByteArray, dif_pos text.isValidUTF8]
  rfl

namespace Files

/-- A path leads to a file, or to a place where a file can be made. -/
def LeadsTo (files : Files) (path : String) (names : List String) : Prop :=
  endsInSlash path = false ∧
    (files.locate path (Files.names path) = .ok (.file names) ∨
      files.locate path (Files.names path) = .ok (.free names))

/-- The text of the file that a path leads to. -/
def textAt (files : Files) (path : String) : Except FileError String :=
  match files.read path with
  | .error error => .error error
  | .ok bytes =>
    match String.fromUTF8? bytes with
    | some text => .ok text
    | none => .error .notText

/-! ### The file system -/

/-- Reading gives what is there, and changes nothing. -/
theorem run_readText (files : Files) (path : String) :
    (system.readText path).run files = (files.textAt path, files) := by
  simp only [FileSystem.readText, system, textAt, StateT.run_bind, StateT.run_get,
    StateT.run_pure, pure_bind]
  cases files.read path with
  | error error => rfl
  | ok bytes =>
    dsimp only
    cases String.fromUTF8? bytes <;> rfl

/-- Writing is done as a whole or not at all. -/
theorem run_write (files : Files) (path : String) (bytes : ByteArray) :
    (system.write path bytes).run files =
      match files.write path bytes with
      | .error error => (.error error, files)
      | .ok after => (.ok (), after) := by
  simp only [system, StateT.run_bind, StateT.run_get, pure_bind]
  cases files.write path bytes <;> rfl

/-! ### One file replaced -/

theorem lookup_filter_of_ne {entries : List (List String × ByteArray)} {names other : List String}
    (h : other ≠ names) :
    (entries.filter fun entry => entry.1 != names).lookup other = entries.lookup other := by
  induction entries with
  | nil => rfl
  | cons entry rest ih =>
    obtain ⟨name, content⟩ := entry
    by_cases hname : name = names
    · have hkey : (other == name) = false := beq_false_of_ne (hname ▸ h)
      simp [hname, List.lookup_cons, hname ▸ hkey, ih]
    · simp [hname, List.lookup_cons, ih]

variable {files after : Files} {path : String} {names other : List String} {bytes : ByteArray}

theorem content?_put_self : (files.put names bytes).content? names = some bytes := by
  have hnone : (files.entries.filter fun entry => entry.1 != names).lookup names = none := by
    rw [List.lookup_eq_none_iff]
    intro entry hmem
    rw [bne_comm]
    exact (List.mem_filter.mp hmem).2
  simp only [content?, put, List.lookup_append, hnone, List.lookup_cons_self, Option.none_or]

theorem content?_put_of_ne (h : other ≠ names) :
    (files.put names bytes).content? other = files.content? other := by
  have hnone : [(names, bytes)].lookup other = none := by
    simpa [List.lookup_eq_none_iff] using h
  simp only [content?, put, List.lookup_append, lookup_filter_of_ne h, hnone, Option.or_none]

/-- Directories stay directories when a file is put somewhere. -/
theorem isDirectory_put (h : files.isDirectory other = true) :
    (files.put names bytes).isDirectory other = true := by
  simp only [isDirectory, Bool.or_eq_true, List.any_eq_true] at h ⊢
  refine h.imp_right ?_
  rintro ⟨entry, hmem, hbelow⟩
  by_cases hentry : entry.1 = names
  · exact ⟨(names, bytes), by simp [put], hentry ▸ hbelow⟩
  · exact ⟨entry, by simp [put, hmem, hentry], hbelow⟩

/-! ### Where a path leads -/

/-- A file is there, and a free place is neither a file nor a directory. -/
def Has (files : Files) : Spot → Prop
  | .file names => (files.content? names).isSome
  | .directory => True
  | .free names => files.content? names = none ∧ files.isDirectory names = false

theorem has_of_follow {start : Option (List String)} {steps : List String} {spot : Spot}
    (h : files.follow start steps = .ok spot) : files.Has spot := by
  fun_induction follow files start steps with
  | case1 => cases h; trivial
  | case2 _ _ ih => exact ih h
  | case3 _ _ _ ih => exact ih h
  | case4 | case6 | case9 => contradiction
  | case5 _ _ _ _ _ _ hfile _ => cases h; exact hfile
  | case7 _ _ _ _ _ _ _ _ ih => exact ih h
  | case8 _ _ _ _ _ _ hnone hplain _ =>
    cases h
    exact ⟨by simpa using hnone, by simpa using hplain⟩

/-- Once a file has been put where a path leads, the path leads to that file. -/
theorem follow_put {start : Option (List String)} {steps : List String}
    (h : files.follow start steps = .ok (.file names) ∨
      files.follow start steps = .ok (.free names)) :
    (files.put names bytes).follow start steps = .ok (.file names) := by
  have hself : ((files.put names bytes).content? names).isSome := by simp [content?_put_self]
  fun_induction follow files start steps with
  | case1 => simp at h
  | case2 rest _ ih =>
    simp only [follow, if_true]
    exact ih h
  | case3 _ _ hdot ih =>
    simp only [follow, hdot, if_false, if_true]
    exact ih h
  | case4 | case6 | case9 => simp at h
  | case5 step rest hdot hup start next hfile hlast =>
    obtain rfl : next = names := by simpa using h
    simp only [follow, hdot, hup, if_false, hself, hlast, if_true, next]
  | case7 step rest hdot hup start next hnone hdir ih =>
    -- the place is not this directory, which therefore is still no file
    have hne : next ≠ names := by
      rintro rfl
      rcases h with h | h
      · exact hnone (has_of_follow h)
      · simp [(has_of_follow h).2] at hdir
    simp only [follow, hdot, hup, if_false, content?_put_of_ne hne, hnone, isDirectory_put hdir,
      if_true, next]
    exact ih h
  | case8 step rest hdot hup start next hnone hplain hlast =>
    obtain rfl : next = names := by simpa using h
    simp only [follow, hdot, hup, if_false, hself, hlast, if_true, next]

/-! ### What a write does -/

/-- A write succeeds just where a path leads to a file or to a free place, and puts the
content there. -/
theorem write_eq_ok_iff :
    files.write path bytes = .ok after ↔
      ∃ names, files.LeadsTo path names ∧ after = files.put names bytes := by
  unfold write LeadsTo
  cases endsInSlash path with
  | true => simp
  | false =>
    rcases files.locate path (Files.names path) with _ | (_ | _ | _) <;> simp [eq_comm]

/-- After a write the path leads to the file that was written. -/
theorem LeadsTo.locate_put (h : files.LeadsTo path names) :
    (files.put names bytes).locate path (Files.names path) = .ok (.file names) := by
  obtain ⟨-, hspot⟩ := h
  unfold locate at hspot ⊢
  split at hspot
  · simp at hspot
  · next hpath =>
    rw [if_neg hpath]
    exact follow_put hspot

/-- What was written at a path is read there. -/
theorem read_of_write (h : files.write path bytes = .ok after) : after.read path = .ok bytes := by
  obtain ⟨names, hleads, rfl⟩ := write_eq_ok_iff.mp h
  simp only [read, hleads.1, Bool.false_eq_true, if_false, List.append_nil, hleads.locate_put,
    content?_put_self]

/-- A text has been written at a path, and no other file has changed. -/
structure Written (files after : Files) (path : String) (text : List Char) : Prop where
  textAt : after.textAt path = .ok (String.ofList text)
  only : ∃ names, files.LeadsTo path names ∧
    after.content? names = some (String.ofList text).toUTF8 ∧
    ∀ other, other ≠ names → after.content? other = files.content? other

theorem written_of_write {text : List Char}
    (h : files.write path (String.ofList text).toUTF8 = .ok after) :
    files.Written after path text where
  textAt := by simp only [Files.textAt, read_of_write h, fromUTF8?_toUTF8]
  only := by
    obtain ⟨names, hleads, rfl⟩ := write_eq_ok_iff.mp h
    exact ⟨names, hleads, content?_put_self, fun other => content?_put_of_ne⟩

end Files

end OutlineWiki
