import Bookbinder.Proofs.Analysis.Rebuild
import Bookbinder.Proofs.Book.Repetition
import Bookbinder.Proofs.Command.Confinement

/-!
# Building twice

On a tree without links a build that succeeded succeeds again and changes nothing
(`Disk.runLine_again`): the settings are read as before (`Book.Changes.settings_eq`), the project is
analysed alike, and its book is written over itself. This takes a settings file that the build does not
overwrite. A build whose settings file is the project file of its own book fails the second time
(`not_runLine_again`).
-/

namespace Bookbinder

variable {d d' : Disk} {cs : List Category} {out : Path} {o : BuildOptions}

/-! ## Settings -/

theorem not_isBookName_settingsFile : ¬IsBookName settingsFile := by
  rintro ⟨stem, ext, hext, he⟩
  have hsuffix : ∀ e ∈ bookExtensions, ¬('.' :: e) <:+ settingsFile := by decide
  exact hsuffix ext hext ⟨stem, he.symm⟩

/-- The settings file is looked for in the working directory. -/
theorem follow_settingsFile (d : Disk) :
    d.follow settingsFile = d.followFrom Disk.maxLinks d.workDir [settingsFile] := rfl

theorem isEntry_settingsFile : Disk.IsEntry settingsFile := ⟨by decide, by decide, by decide⟩

namespace Book.Changes

theorem loadOrDefault_eq (h : Changes cs out d d') (hno : d.NoLinks) :
    Settings.loadOrDefault d' settingsFile = Settings.loadOrDefault d settingsFile := by
  have hwork := h.grows.workDir
  rcases h.node?_eq d.workDir not_isBookName_settingsFile with he | ⟨hn, hd⟩
  · have hread : d'.readText settingsFile = d.readText settingsFile := by
      rw [Disk.readText, Disk.readText, follow_settingsFile, follow_settingsFile, hwork,
        Disk.followFrom_entry isEntry_settingsFile, Disk.followFrom_entry isEntry_settingsFile, he]
      cases hnode : d.node? (d.workDir ++ [settingsFile]) with
      | none => rfl
      | some node =>
        cases node with
        | file bytes => rfl
        | directory => simp only [Disk.followFrom_nil]
        | link target => exact absurd hnode (hno _ target)
    rw [Settings.loadOrDefault, Settings.loadOrDefault, Settings.load, Settings.load, hread]
  · -- A directory that was made in its place is no settings file either.
    have hread : d.readText settingsFile = .error .notFound := by
      rw [Disk.readText, follow_settingsFile, Disk.followFrom_entry isEntry_settingsFile, hn]
      rfl
    have hread' : d'.readText settingsFile = .error .isDirectory := by
      rw [Disk.readText, follow_settingsFile, hwork, Disk.followFrom_enter isEntry_settingsFile hd,
        Disk.followFrom_nil]
    rw [Settings.loadOrDefault, Settings.loadOrDefault, Settings.load, Settings.load, hread, hread']
    rfl

/-- A build finds the settings that it found before. -/
theorem settings_eq (h : Changes cs out d d') (hno : d.NoLinks)
    (hc : ∀ p ∈ o.config, d'.readText p = d.readText p) : o.settings d' = o.settings d := by
  unfold BuildOptions.settings
  cases ho : o.config with
  | none => simp only [h.loadOrDefault_eq hno]
  | some p =>
    have hload : Settings.load d' p = Settings.load d p := by
      rw [Settings.load, Settings.load, hc p ho]
    simp only [hload]

end Book.Changes

/-! ## Builds that succeed -/

namespace BuildOptions

theorem exists_write_of_done (h : (o.run d).ending = .done) :
    ∃ s R d' r, o.analyze d = .ok (s, R) ∧
      Book.write d (o.bookSettings s R.root) R.categories R.stats = (d', .ok r) := by
  cases ha : o.analyze d with
  | error f =>
    rw [run, ha] at h
    cases h
  | ok sR =>
    obtain ⟨s, R⟩ := sR
    rcases hw : Book.write d (o.bookSettings s R.root) R.categories R.stats with ⟨d', e | r⟩
    · rw [run, ha] at h
      dsimp only at h
      rw [hw] at h
      cases h
    · exact ⟨s, R, d', r, rfl, hw⟩

/-- Both disks give the build the same settings, sources and analysis. -/
structure SameInput (o : BuildOptions) (d d' : Disk) (s : Settings) (a : Analyzer) (root : Location)
    (R : Analysis) : Prop where
  settings : o.settings d = .ok s ∧ o.settings d' = .ok s
  analyzer : Analyzer.ofSettings s = .ok a
  project : d.canonical o.path = .ok root ∧ d'.canonical o.path = .ok root
  sources : a.filter.discover d' root = a.filter.discover d root
  analysis : a.analyze d o.path = .ok R ∧ a.analyze d' o.path = .ok R

end BuildOptions

/-- The first report counts one page more than the second exactly if the home page at the location was
made from `d` to `d'`. All other numbers are the same. -/
structure Report.CountsHome (r r' : Report) (d d' : Disk) (home : Location) : Prop where
  modules : r'.modules = r.modules
  entries : r'.entries = r.entries
  skipped : r'.skipped = r.skipped
  made : d.node? home = none → (∃ bytes, d'.node? home = some (.file bytes)) → r.pages = r'.pages + 1
  kept : ¬(d.node? home = none ∧ ∃ bytes, d'.node? home = some (.file bytes)) → r.pages = r'.pages

theorem Book.countsHome_report {home : Bool} {loc : Location}
    (h : home = true ↔ d.node? loc = none ∧ ∃ bytes, d'.node? loc = some (.file bytes)) :
    (report cs home).CountsHome (report cs false) d d' loc := by
  refine ⟨rfl, rfl, rfl, fun hn hf => ?_, fun hn => ?_⟩
  · rw [h.2 ⟨hn, hf⟩]
    rfl
  · rw [← h, Bool.not_eq_true] at hn
    rw [hn]

/-- On a tree without links a build that succeeded succeeds again with the same sources, leaves every node
as it is and reports the same numbers, but for the home page that is there already; if its settings file
still reads as it did. -/
theorem Disk.runLine_again {args : List Text} (hd : d.IsSound) (hno : d.NoLinks)
    (ho : Command.parse args = .ok (.build o)) (hdone : (d.runLine args).ending = .done)
    (hd' : (d.runLine args).disk = d') (hc : ∀ p ∈ o.config, d'.readText p = d.readText p) :
    (d'.runLine args).ending = .done ∧
    (∀ l, (d'.runLine args).disk.node? l = d'.node? l) ∧
    ∃ s a root R loc r r', o.SameInput d d' s a root R ∧
      d'.LeadsTo s.output.directory loc ∧
      (d.runLine args).output = BuildOptions.doneText s.output.directory R r ∧
      (d'.runLine args).output = BuildOptions.doneText s.output.directory R r' ∧
      r.CountsHome r' d d' (loc ++ [Layout.homePage]) := by
  rw [runLine_build ho] at hdone hd' ⊢
  obtain ⟨s, R, d₁, r, ha, hw⟩ := BuildOptions.exists_write_of_done hdone
  have hrun := BuildOptions.run_of_write ha hw
  obtain rfl : d₁ = d' := by rw [← hd', hrun]
  obtain ⟨hs, hpath, a, hset, hR⟩ := BuildOptions.analyze_ok ha
  have hchanges := Book.write_changes d (o.bookSettings s R.root) R.categories R.stats
    fun loc _ => hno.noLinkBelow loc
  rw [hw] at hchanges
  have hsound := Book.isSound_write hd hw
  obtain ⟨root, hroot, -⟩ := Analyzer.analyze_ok hR
  have hs' := (hchanges.settings_eq hno hc).trans hs
  have hR' := (hchanges.analyze_eq hd.toIsTree hsound.toIsTree hno (a := a) hroot).trans hR
  have ha' : o.analyze d₁ = .ok (s, R) := by
    rw [BuildOptions.analyze_eq]
    simp only [hs', hchanges.grows.pathExists hpath, hset, hR', if_true]
    rfl
  obtain ⟨loc, hlead⟩ := Book.exists_leadsTo_of_write hw
  obtain ⟨d₂, hw', hagree⟩ := Book.write_again hw hlead (hno.noLinkBelow loc)
  obtain ⟨home, rfl, hhome⟩ := Book.write_home_iff hw hlead (hno.noLinkBelow loc)
  have hrun' := BuildOptions.run_of_write ha' hw'
  rw [runLine_build ho, hrun, hrun']
  refine ⟨rfl, hagree.node, s, a, root, R, loc, _, _, ⟨⟨hs, hs'⟩, hset, ⟨hroot, ?_⟩, ?_, hR, hR'⟩,
    hlead, rfl, rfl, Book.countsHome_report hhome⟩
  · exact hchanges.grows.canonical hroot
  · exact hchanges.discover_eq hd.toIsTree hsound.toIsTree hno a.filter root

namespace Desk

theorem isSound_disk : disk.IsSound := ⟨by decide, rfl⟩

/-- A command line for the build that takes the project file of its own book for a settings file. -/
def ownArgs : List Text := ["build", ".", "-o", "out", "--config", "out/_quarto.yml"]

theorem parse_ownArgs : Command.parse ownArgs = .ok (.build (options (some "out/_quarto.yml"))) := rfl

theorem settings_own : (options (some "out/_quarto.yml")).settings disk = .ok settings := by
  have hload : Settings.load disk "out/_quarto.yml" = .ok {} := by
    rw [Settings.load, Disk.readText_of_follow_file (t := []) (Disk.follow_of_within 9 rfl)]
    decide +kernel
  rw [BuildOptions.settings]
  simp only [options, hload]
  decide +kernel

theorem parse?_projectText :
    Settings.parse? (projectText book (Layout.ofCategories analysis.categories).chapters) = none := by
  decide +kernel

end Desk

theorem Disk.runLine_again_desk :
    ∃ d' R r r', (Desk.disk.runLine Desk.args).disk = d' ∧
      (d'.runLine Desk.args).ending = .done ∧
      (∀ l, (d'.runLine Desk.args).disk.node? l = d'.node? l) ∧
      (Desk.disk.runLine Desk.args).output = BuildOptions.doneText "out" R r ∧
      (d'.runLine Desk.args).output = BuildOptions.doneText "out" R r' ∧
      r.pages = r'.pages + 1 := by
  obtain ⟨d', hd', hdone, hbook⟩ := Desk.run_disk Desk.settings_none
  rw [← runLine_build Desk.parse_args] at hd' hdone
  obtain ⟨hdone', hnode, s, a, root, R, loc, r, r', hin, hlead, hout, hout', hcounts⟩ :=
    runLine_again Desk.isSound_disk Desk.noLinks_disk Desk.parse_args hdone hd' nofun
  obtain rfl := Except.ok.inj (hin.settings.1.symm.trans Desk.settings_none)
  obtain rfl := hbook.directory.unique hlead
  have hmissing : Desk.disk.node? (Desk.bookDir ++ [Layout.homePage]) = none := rfl
  exact ⟨d', R, r, r', hd', hdone', hnode, hout, hout', hcounts.made hmissing ⟨_, hbook.homePage⟩⟩

/-- A build that takes the project file of its own book for a settings file fails the second time: the
file holds the book then. -/
theorem Disk.not_runLine_again : ¬∀ (d : Disk) (args : List Text) (o : BuildOptions),
    d.IsSound → d.NoLinks → Command.parse args = .ok (.build o) → (d.runLine args).ending = .done →
      ((d.runLine args).disk.runLine args).ending = .done := by
  intro h
  obtain ⟨d', hd', hdone, hbook⟩ := Desk.run_disk Desk.settings_own
  rw [← runLine_build Desk.parse_ownArgs] at hd' hdone
  have hagain := h _ _ _ Desk.isSound_disk Desk.noLinks_disk Desk.parse_ownArgs hdone
  have hload : Settings.load d' "out/_quarto.yml" = .error .settingsText := by
    simp only [Settings.load, readText_of_follow_file hbook.projectFile, Settings.ofText,
      Desk.parse?_projectText]
  have hs : (Desk.options (some "out/_quarto.yml")).settings d' = .error .settingsText := by
    show (Settings.load d' "out/_quarto.yml").bind _ = _
    rw [hload]
    rfl
  rw [hd', runLine_build Desk.parse_ownArgs, BuildOptions.run,
    BuildOptions.analyze_error_iff.2 (.settings hs)] at hagain
  cases hagain

end Bookbinder
