import Bookbinder.Command.Run
import Bookbinder.Proofs.Analysis.Counts
import Bookbinder.Proofs.Book.Confinement
import Bookbinder.Proofs.Disk.Walks

/-!
# What a run may change

A command line changes a disk only if it builds a book, and then only when all that comes before writing
has succeeded (`BuildOptions.analyze_error_iff`). What a build changes lies in the directory of the book:
the project file, a home page where there was none, and files in the directory of the chapters
(`Disk.runLine_confined`).
-/

namespace Bookbinder

namespace BuildOptions

/-- The build fails before anything is written: in the settings, the path of the project, the patterns or
the analysis. -/
inductive FailsEarly (o : BuildOptions) (d : Disk) : Failure → Prop
  | settings {f : Failure} (h : o.settings d = .error f) : FailsEarly o d f
  | path {s : Settings} (hs : o.settings d = .ok s) (h : d.pathExists o.path = false) :
      FailsEarly o d (.notFound o.path)
  | patterns {s : Settings} {f : Failure} (hs : o.settings d = .ok s) (hp : d.pathExists o.path)
      (h : Analyzer.ofSettings s = .error f) : FailsEarly o d f
  | analysis {s : Settings} {a : Analyzer} {f : Failure} (hs : o.settings d = .ok s)
      (hp : d.pathExists o.path) (ha : Analyzer.ofSettings s = .ok a)
      (h : a.analyze d o.path = .error f) : FailsEarly o d f

variable {o : BuildOptions} {d : Disk}

/-- The steps that come before writing, in order. -/
theorem analyze_eq (o : BuildOptions) (d : Disk) :
    o.analyze d =
      match o.settings d with
      | .error f => .error f
      | .ok s =>
        if d.pathExists o.path then
          match Analyzer.ofSettings s with
          | .error f => .error f
          | .ok a => (a.analyze d o.path).map fun R => (s, R)
        else .error (.notFound o.path) := by
  unfold analyze
  cases o.settings d with
  | error f => rfl
  | ok s =>
    show (if (!d.pathExists o.path) = true then Except.error (Failure.notFound o.path)
      else (Analyzer.ofSettings s).bind fun a => (a.analyze d o.path).bind fun R => .ok (s, R)) = _
    dsimp only
    cases d.pathExists o.path with
    | false => rfl
    | true =>
      cases Analyzer.ofSettings s with
      | error f => rfl
      | ok a =>
        show (a.analyze d o.path).bind (fun R => .ok (s, R)) = (a.analyze d o.path).map fun R => (s, R)
        cases a.analyze d o.path <;> rfl

theorem analyze_error_iff {f : Failure} : o.analyze d = .error f ↔ o.FailsEarly d f := by
  rw [analyze_eq]
  constructor
  · intro h
    split at h
    · cases h
      exact .settings ‹_›
    · split at h
      · split at h
        · cases h
          exact .patterns ‹_› ‹_› ‹_›
        · rename_i a ha
          cases hr : a.analyze d o.path with
          | error f =>
            rw [hr] at h
            cases h
            exact .analysis ‹_› ‹_› ha hr
          | ok R =>
            rw [hr] at h
            cases h
      · rename_i hp
        cases h
        exact .path ‹_› (by simpa using hp)
  · intro h
    cases h with
    | settings h => rw [h]
    | path hs h => simp [hs, h]
    | patterns hs hp h => simp [hs, hp, h]
    | analysis hs hp ha h =>
      simp only [hs, hp, ha, h, if_true]
      rfl

theorem analyze_ok {s : Settings} {R : Analysis} (h : o.analyze d = .ok (s, R)) :
    o.settings d = .ok s ∧ d.pathExists o.path ∧
      ∃ a, Analyzer.ofSettings s = .ok a ∧ a.analyze d o.path = .ok R := by
  rw [analyze_eq] at h
  split at h
  · cases h
  · split at h
    · split at h
      · cases h
      · rename_i a ha
        cases hr : a.analyze d o.path with
        | error f =>
          rw [hr] at h
          cases h
        | ok R' =>
          rw [hr] at h
          cases h
          exact ⟨‹_›, ‹_›, a, ha, hr⟩
    · cases h

/-- A build that has come to writing leaves the disk as writing leaves it. -/
theorem disk_run {s : Settings} {R : Analysis} (h : o.analyze d = .ok (s, R)) :
    (o.run d).disk = (Book.write d (o.bookSettings s R.root) R.categories R.stats).1 := by
  unfold run
  rw [h]
  dsimp only
  split <;> simp_all

/-- What a build prints in the end. -/
def doneText (directory : Path) (R : Analysis) (r : Report) : Text :=
  printed (analysisLines R ++ [r.summary, "Book written to: ".toList ++ directory])

theorem run_of_write {s : Settings} {R : Analysis} {d' : Disk} {r : Report}
    (ha : o.analyze d = .ok (s, R))
    (hw : Book.write d (o.bookSettings s R.root) R.categories R.stats = (d', .ok r)) :
    o.run d = { disk := d', output := doneText s.output.directory R r } := by
  unfold run
  rw [ha]
  dsimp only
  rw [hw]
  rfl

end BuildOptions

namespace Book

/-- The files that a build may change in the directory of the book at `loc`. -/
inductive IsBookFile (d : Disk) (loc : Location) : Location → Prop
  | projectFile : IsBookFile d loc (loc ++ [Layout.projectFile])
  | homePage (h : d.node? (loc ++ [Layout.homePage]) = none) :
      IsBookFile d loc (loc ++ [Layout.homePage])
  | chapter {rel : Location} (h : Path.AreNames rel) :
      IsBookFile d loc (loc ++ Layout.chaptersDir :: rel)

/-- From `d` to `d'` only files of the book with this directory have changed, and directories have been
made. -/
def Confined (out : Path) (d d' : Disk) : Prop :=
  ∀ l, d'.node? l = d.node? l ∨ (d.node? l = none ∧ d'.node? l = some .directory) ∨
    ∃ loc bytes, d'.LeadsTo out loc ∧ d'.node? l = some (.file bytes) ∧ IsBookFile d loc l

theorem confined_refl (out : Path) (d : Disk) : Confined out d d := fun _ => .inl rfl

theorem MayChange.isBookFile {cs : List Category} {d : Disk} {loc l : Location}
    (h : MayChange cs d loc l) : IsBookFile d loc l := by
  cases h with
  | projectFile => exact .projectFile
  | homePage h => exact .homePage h
  | page h =>
    rw [chaptersPlan, Plan.pages_within] at h
    obtain ⟨⟨rel, t⟩, hrel, he⟩ := List.mem_map.1 h
    cases he
    have hkey := (Plan.keys_pages_sublist _).subset (List.mem_map_of_mem hrel)
    have hr := rooted_categories (Layout.wellNamed_ofCategories cs)
    exact .chapter (hr.areNames (by simp) _ hkey)

theorem Changes.confined {cs : List Category} {out : Path} {d d' : Disk}
    (h : Changes cs out d d') : Confined out d d' := by
  intro l
  rcases h.node l with he | hd | ⟨loc, bytes, hloc, hf, hm⟩
  · exact .inl he
  · exact .inr (.inl hd)
  · exact .inr (.inr ⟨loc, bytes, hloc, hf, hm.isBookFile⟩)

end Book

theorem Disk.runLine_build {d : Disk} {args : List Text} {o : BuildOptions}
    (h : Command.parse args = .ok (.build o)) : d.runLine args = o.run d := by
  rw [runLine, h]
  rfl

/-- A command line that builds no book changes nothing, and neither does a build that fails before it
comes to writing. Any other build changes only files of the book, in its directory, if no link lies
there; all else it makes is directories. -/
theorem Disk.runLine_confined (d : Disk) (args : List Text) :
    ((∀ o, Command.parse args ≠ .ok (.build o)) → (d.runLine args).disk = d) ∧
    ∀ o, Command.parse args = .ok (.build o) →
      (∀ f, o.FailsEarly d f →
        (d.runLine args).disk = d ∧ (d.runLine args).ending = .failed f) ∧
      ∀ s, o.settings d = .ok s →
        (∀ loc, (d.runLine args).disk.LeadsTo s.output.directory loc → d.NoLinkBelow loc) →
        Book.Confined s.output.directory d (d.runLine args).disk := by
  constructor
  · intro h
    unfold runLine
    split
    · rename_i c hc
      cases c with
      | build o => exact absurd hc (h o)
      | inspect o =>
        show (o.run d).disk = d
        unfold InspectOptions.run
        split <;> rfl
      | version => rfl
    · rename_i u _
      cases u <;> rfl
  · intro o ho
    rw [runLine_build ho]
    refine ⟨fun f hf => ?_, fun s hs hno => ?_⟩
    · rw [BuildOptions.run, BuildOptions.analyze_error_iff.2 hf]
      exact ⟨rfl, rfl⟩
    · cases ha : o.analyze d with
      | error f =>
        rw [BuildOptions.run, ha]
        exact Book.confined_refl _ d
      | ok r =>
        obtain ⟨s', R⟩ := r
        obtain ⟨hs', -⟩ := BuildOptions.analyze_ok ha
        obtain rfl := Except.ok.inj (hs.symm.trans hs')
        rw [BuildOptions.disk_run ha] at hno ⊢
        exact (Book.write_changes d (o.bookSettings s R.root) R.categories R.stats hno).confined

/-! ## A project that holds its book -/

namespace Desk

/-- The directory of the book. -/
def bookDir : Location := ["work".toList, "out".toList]

/-- One source, and a directory for the book with an empty project file. -/
def disk : Disk where
  nodes :=
    [(["work".toList], .directory), (["work".toList, "a.js".toList], .file (Disk.encode [])),
     (bookDir, .directory), (bookDir ++ [Layout.projectFile], .file (Disk.encode []))]
  workDir := ["work".toList]

/-- A build of the project, with a settings file or none. -/
def options (config : Option Path) : BuildOptions :=
  { path := ".", output := some "out", config := config }

/-- A command line for the build without a settings file. -/
def args : List Text := ["build", ".", "-o", "out"]

theorem parse_args : Command.parse args = .ok (.build (options none)) := rfl

def settings : Settings := ({} : Settings).merge { output := some "out" }

theorem loadOrDefault_disk : Settings.loadOrDefault disk settingsFile = {} :=
  Settings.loadOrDefault_of_unreadable (Disk.readText_of_follow_missing (Disk.follow_of_within 9 rfl))

theorem settings_none : (options none).settings disk = .ok settings := by
  rw [BuildOptions.settings]
  simp only [options, loadOrDefault_disk]
  decide +kernel

def analysis : Analysis :=
  { root := "/work", categories := Analyzer.soloCategories, unreadable := [], stats := { files := 1 } }

def book : BookSettings := (options none).bookSettings settings analysis.root

theorem noLinks_disk : disk.NoLinks := Disk.noLinks_of_nodes (by simp [disk])

theorem document_disk {a : Analyzer} (ha : a.settings = settings) :
    a.document disk ["work".toList] ["a.js".toList] = .ok Analyzer.soloModule := by
  have hr : disk.readText (sourcePath ["work".toList] ["a.js".toList]) = .ok [] :=
    Disk.readText_of_follow_file (Disk.follow_of_within 9 rfl)
  rw [Analyzer.document, Analyzer.linkFile, hr, ha]
  decide +kernel

theorem exists_analyzer : ∃ a, Analyzer.ofSettings settings = .ok a ∧ a.settings = settings ∧
    a.filter.discover disk ["work".toList] = [["a.js".toList]] := by
  have h : (Analyzer.ofSettings settings).map (fun a =>
      (a.settings, (disk.files ["work".toList]).filter (a.filter.isSource ["work".toList]))) =
        .ok (settings, [["a.js".toList]]) := by
    decide +kernel
  obtain ⟨a, ha, hpair⟩ := exists_of_map_eq_ok h
  obtain ⟨hset, hfiles⟩ := Prod.mk.inj hpair
  exact ⟨a, ha, hset, Filter.discover_eq_of_perm (.of_eq hfiles) (by decide)⟩

theorem analyze_disk {config : Option Path} (hs : (options config).settings disk = .ok settings) :
    (options config).analyze disk = .ok (settings, analysis) := by
  have hf : disk.follow (options config).path = .ok (.directory ["work".toList]) :=
    Disk.follow_of_within 9 rfl
  have hp := Disk.canonical_of_follow_directory hf
  have he : disk.pathExists (options config).path := Disk.pathExists_of_follow_directory hf
  have hg : groupModules [Analyzer.soloModule] = Analyzer.soloCategories := by decide +kernel
  obtain ⟨a, ha, hset, hd⟩ := exists_analyzer
  have hR : a.analyze disk (options config).path = .ok analysis := by
    rw [Analyzer.analyze_of_canonical_ok hp, hd, if_neg (by simp), Analyzer.analyzeSources_eq,
      List.map_singleton, Analyzer.outcome, document_disk hset]
    simp only [Analysis.ofOutcomes, List.filterMap_cons, List.filterMap_nil, Except.toOption, hg]
    rfl
  simp only [BuildOptions.analyze_eq, hs, he, ha, hR, if_true]
  rfl

/-- The disk has a book in its directory, with these texts on its home page and in its project file. -/
structure HasBook (d : Disk) (home project : Text) : Prop where
  directory : d.LeadsTo "out" bookDir
  homePage : d.node? (bookDir ++ [Layout.homePage]) = some (.file (Disk.encode home))
  projectFile : d.follow "out/_quarto.yml" =
    .ok (.file (bookDir ++ [Layout.projectFile]) (Disk.encode project))

/-- The disk with the chapters of the book. -/
def diskWithChapters (t₁ t₂ t₃ : Text) : Disk :=
  let general := bookDir ++ ["chapters".toList, "general".toList]
  { disk with
    nodes :=
      [(general ++ ["general".toList, "a.qmd".toList], .file (Disk.encode t₃)),
       (general ++ ["general".toList, "index.qmd".toList], .file (Disk.encode t₂)),
       (general ++ ["general".toList], .directory),
       (general ++ ["index.qmd".toList], .file (Disk.encode t₁)), (general, .directory),
       (bookDir ++ ["chapters".toList], .directory)] ++ disk.nodes }

theorem runAll_solo (t₁ t₂ t₃ t₄ t₅ : Text) :
    ∃ d₁ d₂, Action.runAll disk (Analyzer.soloActions t₁ t₂ t₃) = (d₁, none) ∧
      d₁.pathExists "out/index.md" = false ∧
      Action.runAll d₁ [.write "out/index.md" t₄, .write "out/_quarto.yml" t₅] = (d₂, none) ∧
      HasBook d₂ t₄ t₅ :=
  ⟨diskWithChapters t₁ t₂ t₃, _, Action.runAll_of_within 9 rfl,
    Disk.pathExists_of_follow_missing (Disk.follow_of_within 9 rfl), Action.runAll_of_within 9 rfl,
    { directory := Disk.leadsTo_of_within 9 rfl
      homePage := rfl
      projectFile := Disk.follow_of_within 9 rfl }⟩

/-- A build makes the home page and writes over the project file that was there. -/
theorem run_disk {config : Option Path} (hs : (options config).settings disk = .ok settings) :
    ∃ d', ((options config).run disk).disk = d' ∧ ((options config).run disk).ending = .done ∧
      HasBook d' (Page.ofHome book.title book.description analysis.stats)
        (projectText book (Layout.ofCategories analysis.categories).chapters) := by
  obtain ⟨d₁, d₂, h₁, hhome, h₂, hbook⟩ := runAll_solo _ _ _
    (Page.ofHome book.title book.description analysis.stats)
    (projectText book (Layout.ofCategories analysis.categories).chapters)
  rw [← Analyzer.chapterActions_solo] at h₁
  have hw : Book.write disk book analysis.categories analysis.stats =
      (d₂, .ok (Book.report analysis.categories true)) := by
    have hhome : d₁.pathExists (book.directory.join Layout.homePage) = false := hhome
    exact Book.write_ok_iff.2 ⟨d₁, true, h₁, by rw [hhome]; rfl, rfl, h₂⟩
  rw [BuildOptions.run_of_write (analyze_disk hs) hw]
  exact ⟨d₂, rfl, rfl, hbook⟩

end Desk

theorem Disk.runLine_confined_desk :
    (Desk.disk.runLine ["version".toList]).disk = Desk.disk ∧
    (Desk.disk.runLine ["build".toList, "q".toList]).disk = Desk.disk ∧
    (Desk.disk.runLine ["build".toList, "q".toList]).ending = .failed (.notFound "q") ∧
    (Desk.disk.runLine Desk.args).ending = .done ∧
    Book.Confined "out" Desk.disk (Desk.disk.runLine Desk.args).disk := by
  have hversion : Command.parse ["version".toList] = .ok .version := rfl
  have hq : Command.parse ["build".toList, "q".toList] = .ok (.build { path := "q" }) := rfl
  have hsettings : BuildOptions.settings { path := "q" } Desk.disk = .ok {} := by
    rw [BuildOptions.settings]
    simp only [Desk.loadOrDefault_disk]
    decide +kernel
  have hearly : BuildOptions.FailsEarly { path := "q" } Desk.disk (.notFound "q") :=
    .path hsettings (Disk.pathExists_of_follow_missing (Disk.follow_of_within 9 rfl))
  obtain ⟨hkeep, hfail⟩ := ((runLine_confined Desk.disk ["build".toList, "q".toList]).2 _ hq).1 _ hearly
  refine ⟨?_, hkeep, hfail, ?_, ?_⟩
  · refine (runLine_confined Desk.disk ["version".toList]).1 fun o h => ?_
    rw [hversion] at h
    cases h
  · obtain ⟨-, -, hdone, -⟩ := Desk.run_disk Desk.settings_none
    rw [runLine_build Desk.parse_args, hdone]
  · exact ((runLine_confined Desk.disk _).2 _ Desk.parse_args).2 _ Desk.settings_none fun loc _ =>
      Desk.noLinks_disk.noLinkBelow loc

end Bookbinder
