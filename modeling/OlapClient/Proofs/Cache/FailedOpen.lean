import OlapClient.Cache.Recorder
import OlapClient.Cache.SmallLibrary
import OlapClient.Proofs.Files

/-!
# What opening leaves of the files

A capture opens its output before it reads its input. So where the input is at fault the output was
opened already, and it is empty if the cache was to start empty. Where it is the output that cannot
be opened, nothing was changed. Every other file, and every directory, is as it was. That holds
wherever the opening fails: at the output, at the input as a whole, or at any of its lines.
-/

namespace OlapClient

namespace Capture

variable {files files' : Files} {s : FileSettings} {init : Bool} {path : String}

/-- Opening the output empties the file that a path names: it is that file, and it can be opened. -/
def Empties (files : Files) (s : FileSettings) (init : Bool) (path : String) : Prop :=
  init = true ∧ ∃ output opened, s.output = some output ∧ files.SameFile path output ∧
    files.openOutput output true = .ok opened

/-- Files and directories are as they were, but for the output if it was emptied. -/
structure KeptButOutput (files files' : Files) (s : FileSettings) (init : Bool) : Prop where
  kept : ∀ path entry, files.get path = .ok entry →
    entry = .directory ∨ ¬ Empties files s init path → files'.get path = .ok entry
  emptied : ∀ path entry, files.get path = .ok entry →
    entry ≠ .directory → Empties files s init path → files'.get path = .ok (.file [])

/-- An output that cannot be opened is not emptied. -/
theorem keptButOutput_of_refused {e : CacheError}
    (h : (openOutput files init s.output).2 = .error e) : KeptButOutput files files s init where
  kept := fun _ _ hget _ => hget
  emptied := by
    rintro path entry - - ⟨rfl, output, opened, houtput, -, hopen⟩
    rw [houtput] at h
    simp only [openOutput, hopen] at h
    cases h

theorem keptButOutput_of_opened {output : Option CaptureOutput}
    (h : (openOutput files init s.output).2 = .ok (files', output)) :
    KeptButOutput files files' s init := by
  cases houtput : s.output with
  | none =>
    rw [houtput] at h
    cases h
    refine ⟨fun _ _ hget _ => hget, ?_⟩
    rintro path entry - - ⟨-, output, opened, hsome, -⟩
    rw [houtput] at hsome
    cases hsome
  | some name =>
    rw [houtput] at h
    cases hopen : files.openOutput name init with
    | error e =>
      simp only [openOutput, hopen] at h
      cases h
    | ok opened =>
      obtain ⟨files'', place⟩ := opened
      simp only [openOutput, hopen] at h
      cases h
      refine ⟨fun path entry hget hkept => ?_, ?_⟩
      · refine Files.get_openOutput_of_kept init entry hget hopen (hkept.imp_right fun hnot => ?_)
        cases init with
        | false => exact .inl rfl
        | true => exact .inr fun hsame => hnot ⟨rfl, name, _, houtput, hsame, hopen⟩
      · rintro path entry - - ⟨hinit, output, opened, hsome, hsame, -⟩
        rw [houtput] at hsome
        cases hsome
        subst hinit
        exact Files.get_openOutput_of_sameFile hsame hopen

/-- Whether or not a capture can be opened, and wherever it fails, it spares what is not its
output. -/
theorem keptButOutput_openFiles (files : Files) (s : FileSettings) (init : Bool) :
    KeptButOutput files (openFiles files s init).2.1 s init := by
  unfold openFiles
  rcases hopen : openOutput files init s.output with ⟨events, e | ⟨files', output⟩⟩
  · exact keptButOutput_of_refused (congrArg Prod.snd hopen)
  · have hkept : KeptButOutput files files' s init :=
      keptButOutput_of_opened (congrArg Prod.snd hopen)
    cases s.input with
    | none => exact hkept
    | some input => exact hkept

end Capture

namespace Recorder

open Capture (KeptButOutput)

variable {κ : Type} [SqlLibrary κ] {r r' : Recorder κ} {files files' : Files} {now : Moment}
  {settings : CacheSettings} {connection cache : Properties} {events : List LogEvent}
  {e : CacheError}

/-- A configuration with readable settings fails only where the storage cannot be opened. -/
theorem configure_eq_error (hsettings : CacheSettings.ofProperties cache = .ok settings)
    (h : r.configure files now connection cache = (events, files', r', .error e)) :
    r' = r ∧ @openIfEnabled κ _ files now settings = (events, files', .error e) := by
  unfold configure at h
  rw [hsettings] at h
  cases hsession : r.session with
  | some session =>
    rw [hsession] at h
    cases h
  | none =>
    rw [hsession] at h
    simp only [configureFirst] at h
    rcases hopen : @openIfEnabled κ _ files now settings with ⟨events', files'', e' | backend⟩
    · rw [hopen] at h
      cases h
      exact ⟨rfl, rfl⟩
    · rw [hopen] at h
      cases h

theorem openFiles_of_failed (hbackend : settings.backend = .file)
    (h : @openIfEnabled κ _ files now settings = (events, files', .error e)) :
    Capture.openFiles files settings.file settings.init = (events, files', .error e) := by
  rw [openIfEnabled] at h
  split at h
  · rw [Backend.openStorage, hbackend] at h
    rcases hopen : Capture.openFiles files settings.file settings.init with
      ⟨events', files'', e' | capture⟩
    · simp only [hopen] at h
      cases h
      rfl
    · simp only [hopen] at h
      cases h
  · cases h

/-- An error while storage in files is opened, be it for a capture or by a configuration that
selects one, spares every file and directory but the output. The output is emptied if the cache was
to start empty and it is a file that is there and can be opened for writing; else it is spared, too.
The cache itself stays as it was. -/
theorem failed_open_spares :
    (∀ (files : Files) (s : FileSettings) (init : Bool) events files' e,
      Capture.openFiles files s init = (events, files', .error e) →
      KeptButOutput files files' s init) ∧
    ∀ (κ : Type) [SqlLibrary κ] (r : Recorder κ) (files : Files) now connection cache settings
        events files' r' e,
      CacheSettings.ofProperties cache = .ok settings → settings.backend = .file →
      r.configure files now connection cache = (events, files', r', .error e) →
      r' = r ∧ KeptButOutput files files' settings.file settings.init := by
  have hopened : ∀ (files : Files) (s : FileSettings) (init : Bool) events files' e,
      Capture.openFiles files s init = (events, files', .error e) →
      KeptButOutput files files' s init := by
    intro files s init events files' e h
    have hkept := Capture.keptButOutput_openFiles files s init
    rwa [h] at hkept
  refine ⟨hopened, ?_⟩
  intro κ _ r files now connection cache settings events files' r' e hsettings hbackend h
  obtain ⟨rfl, hopen⟩ := configure_eq_error hsettings h
  exact ⟨rfl, hopened _ _ _ _ _ _ (openFiles_of_failed hbackend hopen)⟩

end Recorder

namespace Capture

/-- An input whose line is no record, an output, and a file that is neither. -/
def threeFiles : Files where
  entries := ⟨[([Text.ascii "in"], .file (Text.ascii "x")),
    ([Text.ascii "other"], .file (Text.ascii "z")), ([Text.ascii "out"], .file (Text.ascii "y"))]⟩

/-- Properties that select the same input and output. -/
def replacing : Properties :=
  [("PLAY", "true"), ("INIT", "true"), ("FILE_INPUT", "in"), ("FILE_OUTPUT", "out")]

theorem unreadable_input_spares :
    (∃ files', (openFiles threeFiles ⟨some "in", some "out"⟩ true).2 =
        (files', .error (.format "in" 1 (.column 1))) ∧
      files'.get "in" = threeFiles.get "in" ∧ files'.get "other" = threeFiles.get "other") ∧
    ∃ events files',
      ({} : Recorder Sql.Connection).configure threeFiles ⟨0, .epoch⟩ [] replacing =
        (events, files', {}, .error (.format "in" 1 (.column 1))) ∧
      files'.get "in" = threeFiles.get "in" ∧ files'.get "other" = threeFiles.get "other" := by
  have hin : threeFiles.get "in" = .ok (.file (Text.ascii "x")) := rfl
  have hother : threeFiles.get "other" = .ok (.file (Text.ascii "z")) := rfl
  have hleads : threeFiles.Leads "in" [Text.ascii "in"] ∧
      threeFiles.Leads "other" [Text.ascii "other"] ∧
      threeFiles.Leads "out" [Text.ascii "out"] := ⟨rfl, rfl, rfl⟩
  have hspared : ∀ name place, threeFiles.Leads name place → place ≠ [Text.ascii "out"] →
      ¬ Empties threeFiles ⟨some "in", some "out"⟩ true name := by
    rintro name place hname hne ⟨-, output, -, houtput, ⟨place', hname', hout⟩, -⟩
    cases houtput
    apply hne
    exact Except.ok.inj (hname.symm.trans (hname'.1.trans (hout.1.symm.trans hleads.2.2)))
  have hboth : ∀ files', KeptButOutput threeFiles files' ⟨some "in", some "out"⟩ true →
      files'.get "in" = threeFiles.get "in" ∧ files'.get "other" = threeFiles.get "other" := by
    intro files' hkept
    rw [hin, hother]
    exact ⟨hkept.kept "in" _ hin (.inr (hspared "in" _ hleads.1 (by decide))),
      hkept.kept "other" _ hother (.inr (hspared "other" _ hleads.2.1 (by decide)))⟩
  constructor
  · have hfault : (openFiles threeFiles ⟨some "in", some "out"⟩ true).2.2 =
        .error (.format "in" 1 (.column 1)) := rfl
    exact ⟨_, Prod.ext rfl hfault, hboth _ (Recorder.failed_open_spares.1 threeFiles
      ⟨some "in", some "out"⟩ true _ _ _ (Prod.ext rfl (Prod.ext rfl hfault)))⟩
  · have hconfigure : (({} : Recorder Sql.Connection).configure threeFiles ⟨0, .epoch⟩ []
        replacing).2.2.2 = .error (.format "in" 1 (.column 1)) := rfl
    have hrefused := Prod.ext rfl (Prod.ext rfl (Prod.ext rfl hconfigure))
    exact ⟨_, _, hrefused, hboth _ (Recorder.failed_open_spares.2 Sql.Connection {} threeFiles
      ⟨0, .epoch⟩ [] replacing _ _ _ _ _ rfl rfl hrefused).2⟩

/-- An output of an earlier run is emptied although its cache cannot be opened. -/
theorem failed_open_empties_output :
    (openFiles threeFiles ⟨some "in", some "out"⟩ true).2.2 =
        .error (.format "in" 1 (.column 1)) ∧
      threeFiles.get "out" = .ok (.file (Text.ascii "y")) ∧
      (openFiles threeFiles ⟨some "in", some "out"⟩ true).2.1.get "out" = .ok (.file []) :=
  ⟨rfl, rfl, rfl⟩

/-- An output that is in use cannot be opened, and keeps what it holds. -/
example :
    let files := { threeFiles with guards := ⟨[([Text.ascii "out"], { writing := some .busy })]⟩ }
    (openFiles files ⟨some "in", some "out"⟩ true).2 =
      (files, .error (.file "out" (.denied .busy))) := rfl

end Capture

end OlapClient
