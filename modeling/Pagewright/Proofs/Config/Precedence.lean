import Pagewright.Proofs.Config.Valid
import Pagewright.Proofs.Storage.Kept
import Pagewright.Proofs.Text.Substitution

/-!
# The command line takes precedence

A URL and a development flag on the command line stand in place of those in the file. Three things live here:

* a URL is read literally on the command line, and in a file only if nothing in it looks like a variable; what a field
  has to say so that it stands for a given text (`Config.literalField`, `Config.expandField_literalField`);
* the variables of a file that was changed in this way (`Config.expandFile_replaced`), and its configuration
  (`Config.ofText_replaced`);
* so loading a file under the command line is loading the changed file, unless it is the URL of the file itself that
  stops it from being loaded (`Config.load_eq_load_replaced`).
-/

namespace Pagewright

/-- Is the URL of the file what the error is about? -/
def ConfigError.isOfUrl : ConfigError → Bool
  | .unsetVariable field _ => field = "build.url".toList
  | .invalid .emptyUrl | .invalid .badUrl => true
  | _ => false

namespace Config

variable {d : Disk} {env : Environment} {file : Option Path} {c : Config} {f : ConfigFile} {s s' : SiteSettings}
  {p : Path} {t t' : Text} {url : Option Text} {dev : Option Bool}

/-! ## Fields that stand for a text -/

/-- A text with its dollar signs doubled. -/
def doubleDollars (t : Text) : Text := t.flatMap fun c => if c = '$' then ['$', '$'] else [c]

/-- The text of a field that stands for a text: dollar signs are doubled if one of them would begin a variable. -/
def literalField (t : Text) : Text := if Text.contains ['$', '\x7b'] t then doubleDollars t else t

theorem expandVariables_doubleDollars (env : Environment) (t : Text) :
    expandVariables env (doubleDollars t) = .ok t := by
  unfold doubleDollars expandVariables
  induction t with
  | nil => rw [List.flatMap_nil, Text.substituteM]
  | cons c t ih =>
    rw [List.flatMap_cons]
    by_cases hc : c = '$'
    · subst hc
      have hstep : ∀ r, readReference? env ('$' :: '$' :: r) = some (.ok ['$'], r) := fun r => rfl
      rw [if_pos rfl, List.cons_append, List.cons_append, List.nil_append, Text.substituteM_cons_some (hstep _),
        if_pos (by simp), ih]
      rfl
    · have hstep : ∀ r, readReference? env (c :: r) = none := by
        intro r
        unfold readReference?
        split <;> simp_all
      rw [if_neg hc, List.singleton_append, Text.substituteM_cons_none (hstep _), ih]
      rfl

/-- A brace is still behind a dollar sign when they are doubled. -/
theorem contains_doubleDollars (h : Text.contains ['$', '\x7b'] t) : Text.contains ['$', '\x7b'] (doubleDollars t) := by
  obtain ⟨a, b, rfl⟩ := Text.contains_iff.1 h
  refine Text.contains_iff.2 ⟨doubleDollars a ++ ['$'], doubleDollars b, ?_⟩
  simp [doubleDollars]

theorem expandField_literalField (env : Environment) (t : Text) : expandField env (literalField t) = .ok t := by
  unfold literalField
  split
  · next h =>
    rw [expandField, if_pos (contains_doubleDollars h)]
    exact expandVariables_doubleDollars env t
  · next h => rw [expandField, if_neg h]

/-! ## Changed files -/

/-- What a file says when the URL and the development flag of the command line are put in. -/
def replaced (f : ConfigFile) (url : Option Text) (dev : Option Bool) : ConfigFile :=
  { f with url := (url.map literalField).getD f.url, dev := dev.getD f.dev }

/-- The URL that the changed file says. -/
theorem expandNamed_replaced (field : String) :
    expandNamed env field (replaced f url dev).url = url.elim (expandNamed env field f.url) .ok := by
  cases url with
  | none => rfl
  | some u =>
    have hliteral : (replaced f (some u) dev).url = literalField u := rfl
    rw [hliteral, expandNamed, expandField_literalField]
    rfl

/-- A field fails at a variable, and says so. -/
theorem eq_unsetVariable_of_expandNamed {field : String} {e : ConfigError} (h : expandNamed env field t = .error e) :
    ∃ name, e = .unsetVariable field.toList name := by
  unfold expandNamed at h
  cases hfield : expandField env t with
  | error name =>
    rw [hfield] at h
    exact ⟨name, (Except.error.inj h).symm⟩
  | ok out =>
    rw [hfield] at h
    cases h

/-- The variables of the changed file are replaced as they are in the file, unless the URL of the file itself has one
that is not set. -/
theorem expandFile_replaced
    (hown : url ≠ none → ∀ name, expandFile env f ≠ .error (.unsetVariable "build.url".toList name)) :
    expandFile env (replaced f url dev) =
      (expandFile env f).map fun f => { f with url := url.getD f.url, dev := dev.getD f.dev } := by
  have hsame : (replaced f url dev).root = f.root ∧ (replaced f url dev).outputDir = f.outputDir := ⟨rfl, rfl⟩
  simp only [expandFile, expandNamed_replaced, hsame, bind, Except.bind] at hown ⊢
  cases hroot : expandOptional env "site.root" f.root with
  | error e => rfl
  | ok root =>
    cases hfield : expandNamed env "build.url" f.url with
    | error e =>
      cases url with
      | none => rfl
      | some u =>
        obtain ⟨name, rfl⟩ := eq_unsetVariable_of_expandNamed hfield
        rw [hroot, hfield] at hown
        exact absurd rfl (hown (Option.some_ne_none u) name)
    | ok own =>
      -- from here on the two files are the same but for the URL, which has been read
      cases url <;> cases expandOptional env "build.output_dir" f.outputDir <;> rfl

/-! ## Configurations of changed files -/

/-- A URL that links can begin with is no problem, and what else is does not depend on it. -/
theorem problem?_of_isBaseUrl (h : isBaseUrl s.url) (h' : isBaseUrl s'.url) (hdepth : s'.maxDepth = s.maxDepth)
    (hkey : s'.sortKey = s.sortKey) : problem? s' = problem? s := by
  simp [problem?, h, h', ne_nil_of_isBaseUrl h, ne_nil_of_isBaseUrl h', hdepth, hkey]

/-- Where the first problem is not the URL, links can begin with it. -/
theorem isBaseUrl_of_problem? (h : ∀ q, problem? s = some q → (ConfigError.invalid q).isOfUrl = false) :
    isBaseUrl s.url := by
  by_contra hbase
  unfold problem? at h
  split at h
  · exact absurd (h _ rfl) (by decide)
  · rw [if_pos (by simpa using hbase)] at h
    exact absurd (h _ rfl) (by decide)

/-- What the command line says in place of the URL and the development flag of the file. -/
def urlAndDev (url : Option Text) (dev : Option Bool) : Overrides := ⟨none, none, url, dev⟩

/-- A configuration is checked twice, before the command line changes it and after that. Where the URL is none of the
problems it has before, nothing is found the first time that is not found the second time. -/
theorem validate_override (hurl : ∀ u, url = some u → isBaseUrl u ∧ ∀ e, c.validate = .error e → e.isOfUrl = false) :
    (c.validate.bind fun c => (c.override (urlAndDev url dev)).validate) = (c.override (urlAndDev url dev)).validate := by
  have hproblem : problem? (c.override (urlAndDev url dev)).settings = problem? c.settings := by
    cases url with
    | none => rfl
    | some u =>
      obtain ⟨hbase, hown⟩ := hurl u rfl
      refine problem?_of_isBaseUrl (isBaseUrl_of_problem? fun q hq => hown _ ?_) hbase rfl rfl
      rw [validate, hq]
  unfold validate
  cases hc : problem? c.settings with
  | none => rfl
  | some q =>
    rw [hproblem, hc]
    rfl

/-- The configuration of the changed text is that of the text, changed by the command line. -/
theorem ofText_replaced (hf : ConfigFile.parse? t = some f) (hf' : ConfigFile.parse? t' = some (replaced f url dev))
    (hurl : ∀ u, url = some u → isBaseUrl u ∧ ∀ e, ofText env p t = .error e → e.isOfUrl = false) :
    ((ofText env p t).bind fun c => (c.override (urlAndDev url dev)).validate) = ofText env p t' := by
  unfold ofText at hurl ⊢
  rw [hf] at hurl ⊢
  rw [hf']
  dsimp only at hurl ⊢
  have hexpand : url ≠ none → ∀ name, expandFile env f ≠ .error (.unsetVariable "build.url".toList name) := by
    intro hne name hunset
    obtain ⟨u, rfl⟩ := Option.ne_none_iff_exists'.1 hne
    rw [hunset] at hurl
    exact absurd ((hurl u rfl).2 _ rfl) (by simp [ConfigError.isOfUrl])
  rw [expandFile_replaced hexpand]
  cases hfile : expandFile env f with
  | error e => rfl
  | ok g =>
    rw [hfile] at hurl
    exact validate_override hurl

/-! ## Loading changed files -/

/-- The file that a configuration is loaded from: the one that is named, or the one that is found. -/
def source? (d : Disk) : Option Path → Option Path
  | some p => if d.isPresent p then some p else none
  | none => discover d (d.workingDirectory.length + 1) d.workingPath

theorem loadBase_of_source? (h : source? d file = some p) (env : Environment) :
    loadBase d env file = loadFile d env p := by
  cases file with
  | none =>
    have hdiscover : discover d (d.workingDirectory.length + 1) d.workingPath = some p := h
    unfold loadBase
    rw [hdiscover]
  | some q =>
    have hnamed : (if d.isPresent q then some q else none) = some p := h
    obtain ⟨hpresent, rfl⟩ : d.isPresent q ∧ q = p := by simpa using hnamed
    exact if_pos hpresent

/-- Once the file is found, only its text matters. -/
theorem load_eq_of_source? (hsource : source? d file = some p) (hread : d.readText p = .ok t) (env : Environment) :
    load d env file none = ofText env p t ∧
      ∀ o, load d env file (some o) = (ofText env p t).bind fun c => (c.override o).validate := by
  have hbase : loadBase d env file = ofText env p t := by
    rw [loadBase_of_source? hsource, loadFile, hread]
    rfl
  rw [load, hbase]
  refine ⟨?_, fun o => ?_⟩
  · cases ofText env p t <;> rfl
  · rw [load, hbase]
    rfl

/-- The same file is found when its text is another one. -/
theorem source?_congr {e : Disk} (h : ∀ q, e.isPresent q = d.isPresent q)
    (hworking : e.workingDirectory = d.workingDirectory) (file : Option Path) : source? e file = source? d file := by
  have hdiscover : ∀ n q, discover e n q = discover d n q := by
    intro n
    induction n with
    | zero => exact fun q => rfl
    | succ n ih =>
      intro q
      rw [discover, discover, h, funext ih]
  cases file with
  | none => rw [source?, source?, hdiscover, Disk.workingPath, Disk.workingPath, hworking]
  | some p => rw [source?, source?, h]

/-- Loading a file under a URL and a development flag of the command line is loading the file with these in it, in which
the URL is written so that it is read literally. The two have the same configuration or the same error, unless the file
cannot be loaded because of its own URL, and the command line has another one. -/
theorem load_eq_load_replaced (hsource : source? d file = some p) (hread : d.readText p = .ok t)
    (hf : ConfigFile.parse? t = some f) (hf' : ConfigFile.parse? t' = some (replaced f url dev))
    (hurl : ∀ u, url = some u → isBaseUrl u ∧ ∀ e, load d env file none = .error e → e.isOfUrl = false) :
    ∃ d', d.writeText p t' = .ok d' ∧ load d env file (some (urlAndDev url dev)) = load d' env file none := by
  obtain ⟨q, hfind⟩ := Disk.readText_eq_ok_iff.1 hread
  have hwrite := Disk.writeText_of_find hfind t'
  refine ⟨_, hwrite, ?_⟩
  have hsource' : source? (d.put q (.file (some t'))) file = some p :=
    (source?_congr (Disk.isPresent_put_of_find hfind) rfl file).trans hsource
  have hread' : Disk.readText (d.put q (.file (some t'))) p = .ok t' :=
    Disk.readText_eq_ok_iff.2 ⟨_, Disk.find_of_writeText hwrite⟩
  obtain ⟨halone, hoverride⟩ := load_eq_of_source? hsource hread env
  rw [halone] at hurl
  rw [hoverride, (load_eq_of_source? hsource' hread' env).1]
  exact ofText_replaced hf hf' hurl

/-! ### URLs with variables -/

/-- A disk with a configuration file in its working directory. -/
def configDisk (t : Text) : Disk :=
  ⟨[(["site".toList], .directory), (["site".toList, "quill.toml".toList], .file (some t))], ["site".toList]⟩

/-- A file whose own URL has a variable with a default. -/
def blogFile : Text := "[build]\nurl = \"/$\x7bBLOG:-blog\x7d\"\n".toList

/-- The file with a URL that is not a variable, and a development flag. -/
def literalFile : Text := "[build]\nurl = \"http://$$\x7bHOST\x7d\"\ndev = true\n".toList

/-- The URL of the command line is taken as it is, although there is a variable of the name in it. -/
theorem load_eq_load_replaced_literalFile :
    let env := [("HOST".toList, "example.com".toList)]
    let url := "http://$\x7bHOST\x7d".toList
    ∃ d', (configDisk blogFile).writeText ⟨"/site/quill.toml".toList⟩ literalFile = .ok d' ∧
      load (configDisk blogFile) env none (some (urlAndDev (some url) (some true))) = load d' env none none ∧
      load (configDisk blogFile) env none (some (urlAndDev (some url) (some true))) =
        .ok ⟨⟨"/site".toList⟩, ⟨"/site/_site".toList⟩, ⟨true, url, 32, "date".toList⟩,
          some ⟨"/site/quill.toml".toList⟩⟩ := by
  intro env url
  have hsource : source? (configDisk blogFile) none = some ⟨"/site/quill.toml".toList⟩ := by decide +kernel
  have hread : (configDisk blogFile).readText ⟨"/site/quill.toml".toList⟩ = .ok blogFile := by decide +kernel
  have hf : ConfigFile.parse? blogFile =
      some ⟨none, "/$\x7bBLOG:-blog\x7d".toList, none, false, 32, "date".toList⟩ := by decide +kernel
  have hf' : ConfigFile.parse? literalFile =
      some (replaced ⟨none, "/$\x7bBLOG:-blog\x7d".toList, none, false, 32, "date".toList⟩ (some url) (some true)) := by
    decide +kernel
  have halone : load (configDisk blogFile) env none none =
      .ok ⟨⟨"/site".toList⟩, ⟨"/site/_site".toList⟩, ⟨false, "/blog".toList, 32, "date".toList⟩,
        some ⟨"/site/quill.toml".toList⟩⟩ := by decide +kernel
  have hurl : ∀ u, some url = some u →
      isBaseUrl u ∧ ∀ e, load (configDisk blogFile) env none none = .error e → e.isOfUrl = false := by
    rintro u ⟨⟩
    refine ⟨by decide +kernel, fun e he => ?_⟩
    rw [halone] at he
    cases he
  obtain ⟨d', hwrite, hload⟩ := load_eq_load_replaced hsource hread hf hf' hurl
  exact ⟨d', hwrite, hload, by decide +kernel⟩

/-- The same URL is read in two ways, by the command line and in a file. And a URL that links cannot begin with stops a
file from being loaded, also where the command line has another one. -/
theorem load_commandLine_ne_file :
    let plain : ConfigFile := ⟨none, SiteSettings.relativeUrl, none, false, 32, "date".toList⟩
    let env := [("QT_HOST".toList, "example.com".toList)]
    let url := "http://$\x7bQT_HOST\x7d".toList
    let urlFile := "[build]\nurl = \"http://$\x7bQT_HOST\x7d\"\ndev = true\n".toList
    let badFile := "[build]\nurl = \"ftp://x\"\n".toList
    let goodFile := "[build]\nurl = \"/blog\"\n".toList
    let loaded (url : Text) (dev : Bool) : Except ConfigError Config :=
      .ok ⟨⟨"/site".toList⟩, ⟨"/site/_site".toList⟩, ⟨dev, url, 32, "date".toList⟩, some ⟨"/site/quill.toml".toList⟩⟩
    (ConfigFile.parse? [] = some plain ∧ ConfigFile.parse? urlFile = some { plain with url := url, dev := true } ∧
      isBaseUrl url ∧ load (configDisk []) env none (some (urlAndDev (some url) (some true))) = loaded url true ∧
      load (configDisk urlFile) env none none = loaded "http://example.com".toList true ∧
      load (configDisk []) env none (some (urlAndDev (some url) (some true))) ≠
        load (configDisk urlFile) env none none) ∧
    (ConfigFile.parse? badFile = some { plain with url := "ftp://x".toList } ∧
      ConfigFile.parse? goodFile = some { plain with url := "/blog".toList } ∧ isBaseUrl "/blog".toList ∧
      load (configDisk badFile) env none (some (urlAndDev (some "/blog".toList) none)) = .error (.invalid .badUrl) ∧
      load (configDisk goodFile) env none none = loaded "/blog".toList false) := by
  decide +kernel

end Config

end Pagewright
