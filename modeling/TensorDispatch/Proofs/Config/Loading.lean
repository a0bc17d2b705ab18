import TensorDispatch.Config.Load
import TensorDispatch.Proofs.Credit

/-!
# What loading lets through

Three places look at a configuration: loading, which passes over the files that give none,
`QueueConfig.validate`, and the creation of a queue, which looks for a schedule or a plan once more
and cuts the budget off. They agree.

* `Config.Gives` — a file gives a configuration: it can be read, its text is one, and it is usable;
* `Config.IsFirstOf` — the first configuration that some files give, or else the defaults;
* `Config.load_spec` — what loading returns, with a file asked for and without one, and that every
  configuration it returns has its queues.
-/

namespace TensorDispatch

namespace Config

variable {parse : String → Option Config} {files : Files}

/-! ### The files -/

/-- A file gives a configuration if it can be read, its text is that configuration, and the
configuration is usable. -/
def Gives (parse : String → Option Config) (files : Files) (path : String) (config : Config) :
    Prop :=
  ∃ text, files.read path = .ok text ∧ parse text = some config ∧
    config.queue.validate = .ok ()

/-- Only what a text says and is usable comes out of it. -/
theorem ofValidText_eq_ok_iff {text : String} {config : Config} :
    ofValidText parse text = .ok config ↔
      parse text = some config ∧ config.queue.validate = .ok () := by
  unfold ofValidText
  cases hparse : parse text with
  | none => simp
  | some c =>
    constructor
    · intro h
      cases hvalid : c.queue.validate with
      | error e => simp [hvalid] at h
      | ok _ =>
        obtain rfl : c = config := by simpa [hvalid] using h
        exact ⟨rfl, hvalid⟩
    · rintro ⟨hconfig, hvalid⟩
      obtain rfl := Option.some.inj hconfig
      simp [hvalid]

theorem ofFile_eq_ok_iff {path : String} {config : Config} :
    ofFile parse files path = .ok config ↔ Gives parse files path config := by
  unfold ofFile Gives
  cases hread : files.read path with
  | error e => simp
  | ok text => simp [ofValidText_eq_ok_iff]

/-- The first configuration that some files give, in their order, or else the defaults. -/
def IsFirstOf (parse : String → Option Config) (files : Files) (paths : List String)
    (config : Config) : Prop :=
  (∃ earlier path later, paths = earlier ++ path :: later ∧
    (∀ other ∈ earlier, ∀ c, ¬ Gives parse files other c) ∧ Gives parse files path config) ∨
  (∀ path ∈ paths, ∀ c, ¬ Gives parse files path c) ∧ config = {}

theorem isFirstOf_firstOf (paths : List String) :
    IsFirstOf parse files paths (firstOf parse files paths) := by
  induction paths with
  | nil => exact .inr ⟨by simp, rfl⟩
  | cons path paths ih =>
    cases hfile : ofFile parse files path with
    | ok config =>
      refine .inl ⟨[], path, paths, rfl, by simp, ?_⟩
      simpa only [firstOf, hfile] using ofFile_eq_ok_iff.mp hfile
    | error e =>
      have hnone : ∀ c, ¬ Gives parse files path c := by
        intro c hgives
        rw [ofFile_eq_ok_iff.mpr hgives] at hfile
        cases hfile
      simp only [firstOf, hfile]
      rcases ih with ⟨earlier, first, later, rfl, hearlier, hgives⟩ | ⟨hall, hdefaults⟩
      · exact .inl ⟨path :: earlier, first, later, rfl, List.forall_mem_cons.mpr ⟨hnone, hearlier⟩,
          hgives⟩
      · exact .inr ⟨List.forall_mem_cons.mpr ⟨hnone, hall⟩, hdefaults⟩

/-- The first of some files is usable, or it is the defaults, which are. -/
theorem IsFirstOf.validate {paths : List String} {config : Config}
    (h : IsFirstOf parse files paths config) : config.queue.validate = .ok () := by
  rcases h with ⟨-, -, -, -, -, -, -, -, hvalid⟩ | ⟨-, rfl⟩
  · exact hvalid
  · rfl

/-- Whatever is loaded is usable. -/
theorem validate_of_load {userDir path : Option String} {config : Config}
    (h : load parse files userDir path = .ok config) : config.queue.validate = .ok () := by
  cases path with
  | some path =>
    obtain ⟨-, -, -, hvalid⟩ := ofFile_eq_ok_iff.mp h
    exact hvalid
  | none =>
    obtain rfl := Except.ok.inj h
    exact (isFirstOf_firstOf _).validate

end Config

/-! ### The queues -/

/-- A usable configuration has a queue on every stage and under every role. The queue meters its
credit where the stage and the role call for it and the multiplier is not zero, and then the whole
of the product is available, with nothing cut off. -/
theorem Queue.exists_create_of_validate {config : QueueConfig} (h : config.validate = .ok ())
    (stage : Stage) (role : Role) :
    ∃ q, create stage config role = .ok q ∧
      (q.credit.isMetered = true ↔ config.Meters stage role) ∧
      (q.credit.isMetered = true →
        q.credit = .metered (config.partitionBound * config.effectiveMultiplier) 0) := by
  obtain ⟨q, hq⟩ := exists_create h stage role
  refine ⟨q, hq, ?_⟩
  by_cases hmeters : config.Meters stage role
  · have hcredit := (create_of_meters hq hmeters).2
    exact ⟨iff_of_true (by rw [hcredit]; rfl) hmeters, fun _ => hcredit⟩
  · have hcredit := create_of_not_meters hq hmeters
    refine ⟨iff_of_false (by simp [hcredit, Credit.isMetered]) hmeters, fun hmetered => ?_⟩
    simp [hcredit, Credit.isMetered] at hmetered

/-! ### Loading -/

namespace Config

/-- A file that is asked for gives the configuration or there is none, whatever other files there
are. Without one, there always is a configuration: the first that the file of the project or the
file of the user gives, or else the defaults. Every configuration that is loaded is usable, and a
queue comes of it on every stage and under every role. Whether the stage has a table does not
matter here: a table is looked at when tasks leave. -/
theorem load_spec (parse : String → Option Config) (files : Files) (userDir : Option String) :
    (∀ path,
      (∀ config, load parse files userDir (some path) = .ok config ↔
        Gives parse files path config) ∧
      ∀ files' userDir', files'.read path = files.read path →
        load parse files' userDir' (some path) = load parse files userDir (some path)) ∧
    (∃ config, load parse files userDir none = .ok config ∧
      IsFirstOf parse files (localPath :: (userDir.map userPath).toList) config) ∧
    ∀ path config, load parse files userDir path = .ok config →
      config.queue.validate = .ok () ∧
      ∀ stage role, ∃ q, Queue.create stage config.queue role = .ok q ∧
        (q.credit.isMetered = true ↔ config.queue.Meters stage role) ∧
        (q.credit.isMetered = true →
          q.credit =
            .metered (config.queue.partitionBound * config.queue.effectiveMultiplier) 0) := by
  refine ⟨fun path => ⟨fun config => ofFile_eq_ok_iff, ?_⟩, ⟨_, rfl, isFirstOf_firstOf _⟩, ?_⟩
  · intro files' userDir' hread
    simp only [load, ofFile, hread]
  · intro path config hload
    have hvalid := validate_of_load hload
    exact ⟨hvalid, Queue.exists_create_of_validate hvalid⟩

/-- A reader of two texts. What the first says is not usable, for lack of a schedule. -/
def readTwoTexts (text : String) : Option Config :=
  if text = "replay" then some { queue := { strategy := .tokenReplay } }
  else if text = "credit" then some { queue := { creditMultiplier := some 2 } }
  else none

/-- The project has the first of the texts, the user the second. -/
def twoFiles : Files where
  read path :=
    if path = localPath then .ok "replay"
    else if path = userPath "/home" then .ok "credit"
    else .error .absent

theorem load_spec_twoFiles :
    (∀ config, load readTwoTexts twoFiles (some "/home") (some localPath) ≠ .ok config) ∧
      ∃ config, load readTwoTexts twoFiles (some "/home") none = .ok config ∧
        ∃ q, Queue.create .reduce config.queue { signalRoot := true } = .ok q ∧
          q.credit = .metered 8192000 0 := by
  obtain ⟨hasked, -, hloaded⟩ := load_spec readTwoTexts twoFiles (some "/home")
  constructor
  · intro config hload
    obtain ⟨text, hread, hparse, hvalid⟩ := ((hasked localPath).1 config).mp hload
    obtain rfl : "replay" = text := Except.ok.inj hread
    obtain rfl := Option.some.inj hparse
    cases hvalid
  · have hload : load readTwoTexts twoFiles (some "/home") none =
        .ok { queue := { creditMultiplier := some 2 } } := rfl
    obtain ⟨-, hqueues⟩ := hloaded none _ hload
    obtain ⟨q, hq, hmeters, hcredit⟩ := hqueues .reduce { signalRoot := true }
    exact ⟨_, hload, q, hq, hcredit (hmeters.mpr ⟨rfl, rfl, by decide⟩)⟩

end Config

end TensorDispatch
