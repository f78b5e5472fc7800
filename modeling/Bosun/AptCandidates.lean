import Mathlib
import Bosun.DpkgStatus

/-!
# Candidate versions

`collect_candidates` reads the files of `/var/lib/apt/lists` in the order of the directory and
keeps one candidate for each package: a candidate with another priority wins by the priority,
and otherwise the newer version wins.  Where one of two candidates has no priority the versions
decide as well, so that three candidates can beat each other in a circle.
`orderFree_iff_settled` says for which candidates the order of files and stanzas does not matter.
-/

namespace Bosun

variable {V : Type} [LinearOrder V] (debVersion : String → Option V)

/-! ## The candidates of the lists -/

structure Candidate where
  version : String
  priority : Option Int
deriving DecidableEq, Repr

/-- `prefer_new` in `merge_candidate` -/
def preferNew (new old : Candidate) : Bool :=
  match new.priority, old.priority with
  | some newP, some oldP =>
    if newP ≠ oldP then decide (oldP < newP) else isNewer debVersion new.version old.version
  | _, _ => isNewer debVersion new.version old.version

abbrev Candidates := AList (fun _ : String => Candidate)

def mergeCandidate (map : Candidates) (name : String) (candidate : Candidate) : Candidates :=
  match map.lookup name with
  | none => map.insert name candidate
  | some existing =>
    if preferNew debVersion candidate existing then map.insert name candidate else map

/-- `Package:` -/
def PACKAGE_KEY : List Char := ['P', 'a', 'c', 'k', 'a', 'g', 'e', ':']

/-- The first line that is not blank begins with the key. -/
def looksLikePackagesFile (text : List Char) : Bool :=
  match (linesOf (String.ofList text)).find? (trim · ≠ []) with
  | some line => PACKAGE_KEY.isPrefixOf line
  | none => false

/-- The loop over the packages of a file. -/
def mergePackage (out : Candidates) (pkg : ParsedPackage) : Candidates :=
  match pkg.version with
  | none => out
  | some version => mergeCandidate debVersion out pkg.name { version, priority := pkg.priority }

/-- The loop over the directory; an entry that is no file, or that cannot be read as text, has
    no text. -/
def collectEntry (out : Candidates) (entry : Option (List Char)) : Candidates :=
  match entry with
  | none => out
  | some text =>
    if looksLikePackagesFile text then (parseControlFile text).foldl (mergePackage debVersion) out
    else out

/-- `none` for a directory that cannot be read. -/
def collectCandidates (listsDir : Option (List (Option (List Char)))) : Candidates :=
  match listsDir with
  | none => ∅
  | some entries => entries.foldl (collectEntry debVersion) ∅

/-! ## The files of apt -/

/-- A stanza of a `Packages` file: the name comes first. -/
structure PackagesStanza where
  stanza : Stanza
  readable : stanza.Readable
  headed : stanza.fields.head?.map ControlField.name = some "Package"

namespace PackagesStanza

/-- The candidate of the stanza, with its package. -/
def candidate (s : PackagesStanza) : Option (String × Candidate) :=
  s.stanza.package.bind fun pkg =>
    pkg.version.map fun version => (pkg.name, { version, priority := pkg.priority })

/-- The candidates of one package. -/
def candidates (s : PackagesStanza) (name : String) : List Candidate :=
  ((s.candidate.filter (·.1 = name)).map Prod.snd).toList

end PackagesStanza

/-- An entry of the directory: a `Packages` file, or what is not taken for one. -/
inductive ListsEntry
  | packages (stanzas : List PackagesStanza) (ends : Nat)
  | other (text : Option (List Char)) (h : ∀ t ∈ text, looksLikePackagesFile t = false)

namespace ListsEntry

def content : ListsEntry → Option (List Char)
  | packages stanzas ends => some (printStanzas (stanzas.map PackagesStanza.stanza) ends)
  | other text _ => text

def stanzas : ListsEntry → List PackagesStanza
  | packages stanzas _ => stanzas
  | other _ _ => []

/-- The same file with its stanzas in another order. -/
inductive Reordered : ListsEntry → ListsEntry → Prop
  | packages {stanzas stanzas' : List PackagesStanza} (ends ends' : Nat) :
      stanzas.Perm stanzas' → Reordered (.packages stanzas ends) (.packages stanzas' ends')
  | other (text : Option (List Char)) (h h' : ∀ t ∈ text, looksLikePackagesFile t = false) :
      Reordered (.other text h) (.other text h')

end ListsEntry

/-- Another order of the files and of the stanzas in them. -/
def Rearranged (files files' : List ListsEntry) : Prop :=
  ∃ between, files.Perm between ∧ List.Forall₂ ListsEntry.Reordered between files'

def stanzasOf (files : List ListsEntry) : List PackagesStanza := files.flatMap ListsEntry.stanzas

/-- What the files have of the package, in their order. -/
def candidatesOf (files : List ListsEntry) (name : String) : List Candidate :=
  (stanzasOf files).flatMap (·.candidates name)

/-- The candidate version that is chosen. -/
def candidateVersion (files : List ListsEntry) (name : String) : Option String :=
  ((collectCandidates debVersion (some (files.map ListsEntry.content))).lookup name).map
    Candidate.version

/-! ## What is read of the files -/

/-- Nothing follows, or another line. -/
def EndsLine (tail : List Char) : Prop := tail = [] ∨ ∃ rest, tail = '\n' :: rest

theorem EndsLine.append {tail tail' : List Char} (h : EndsLine tail) (h' : EndsLine tail') :
    EndsLine (tail ++ tail') := by
  rcases h with rfl | ⟨rest, rfl⟩
  · exact h'
  · exact .inr ⟨rest ++ tail', rfl⟩

theorem endsLine_intercalate (first : List Char) (lines : List (List Char)) :
    ∃ tail, ['\n'].intercalate (first :: lines) = first ++ tail ∧ EndsLine tail := by
  cases lines with
  | nil => exact ⟨[], by simp, .inl rfl⟩
  | cons next lines => exact ⟨'\n' :: ['\n'].intercalate (next :: lines), by simp, .inr ⟨_, rfl⟩⟩

theorem linesOf_firstLine {f : ControlField} (h : f.WellFormed) {tail : List Char}
    (htail : EndsLine tail) :
    ∃ lines, linesOf (String.ofList (f.firstLine ++ tail)) = f.firstLine :: lines := by
  have hline : '\n' ∉ f.firstLine := (h.fullLines _ List.mem_cons_self).2
  have hne : f.firstLine ≠ [] := (h.fullLines _ List.mem_cons_self).1
  rcases htail with rfl | ⟨rest, rfl⟩
  · exact ⟨[], by simp [linesOf, List.splitOn_eq_singleton hline, Option.filter, hne]⟩
  · obtain ⟨next, more, hrest⟩ := List.exists_cons_of_ne_nil (List.splitOn_ne_nil '\n' rest)
    have hsplit : (f.firstLine ++ '\n' :: rest).splitOn '\n' = f.firstLine :: next :: more := by
      rw [List.splitOn_append_cons_self_of_not_mem hline, hrest]
    simp only [linesOf, String.toList_ofList, hsplit, List.dropLast_cons_cons, List.map_cons]
    refine ⟨_, congrArg (· :: _) ?_⟩
    split
    · next hcr => exact h.sameLine_firstLine (.inr ⟨hcr, rfl⟩)
    · rfl

namespace ListsEntry

/-- A `Packages` file is taken for one, whatever the order of its stanzas. -/
theorem looksLikePackagesFile_packages (s : PackagesStanza) (stanzas : List PackagesStanza)
    (ends : Nat) :
    looksLikePackagesFile (printStanzas ((s :: stanzas).map PackagesStanza.stanza) ends) =
      true := by
  obtain ⟨f, fs, hfields⟩ := List.exists_cons_of_ne_nil s.stanza.nonempty
  have hname : f.name = "Package" := by simpa [hfields] using s.headed
  have hf : f.WellFormed := s.stanza.wellFormed f (by simp [hfields])
  -- the text begins with the line of the field
  obtain ⟨tail, htext, htail⟩ : ∃ tail, s.stanza.text = f.firstLine ++ tail ∧ EndsLine tail := by
    rw [Stanza.text, Stanza.lines, hfields, List.flatMap_cons, ControlField.lines, List.cons_append]
    exact endsLine_intercalate _ _
  obtain ⟨tail', hprint, htail'⟩ : ∃ tail', printStanzas ((s :: stanzas).map PackagesStanza.stanza)
      ends = s.stanza.text ++ tail' ∧ EndsLine tail' := by
    have hends : EndsLine (List.replicate ends '\n') := by
      cases ends with
      | zero => exact .inl rfl
      | succ n => exact .inr ⟨_, List.replicate_succ⟩
    cases stanzas with
    | nil => exact ⟨_, by simp [printStanzas], hends⟩
    | cons next stanzas =>
      refine ⟨'\n' :: '\n' :: printStanzas ((next :: stanzas).map PackagesStanza.stanza) ends,
        by simp [printStanzas], .inr ⟨_, rfl⟩⟩
  obtain ⟨lines, hlines⟩ := linesOf_firstLine hf (htail.append htail')
  have hkey : PACKAGE_KEY.isPrefixOf f.firstLine = true := by
    have hchars : f.firstLine =
        PACKAGE_KEY ++ if f.value = "" then [] else ' ' :: f.value.toList := by
      rw [ControlField.firstLine, hname]
      rfl
    rw [List.isPrefixOf_iff_prefix, hchars]
    exact List.prefix_append _ _
  have hfull : trim f.firstLine ≠ [] :=
    Bosun.trim_ne_nil (c := ':') (by simp [ControlField.firstLine]) (by decide)
  rw [looksLikePackagesFile, hprint, htext, List.append_assoc, hlines,
    List.find?_cons_of_pos (by simpa using hfull)]
  exact hkey

theorem mergePackage_eq (out : Candidates) (pkg : ParsedPackage) :
    mergePackage debVersion out pkg =
      match pkg.version.map fun version =>
        (pkg.name, ({ version, priority := pkg.priority } : Candidate)) with
      | some item => RunningBest.keepAt (preferNew debVersion · ·) out item.1 item.2
      | none => out := by
  cases hversion : pkg.version with
  | none => simp [mergePackage, hversion]
  | some version =>
    simp only [mergePackage, hversion, Option.map_some, mergeCandidate, RunningBest.keepAt]
    cases out.lookup pkg.name <;> rfl

/-- The loop over a file merges the candidates of its stanzas. -/
theorem collectEntry_content (out : Candidates) (e : ListsEntry) :
    collectEntry debVersion out e.content = (e.stanzas.filterMap PackagesStanza.candidate).foldl
      (fun out item => RunningBest.keepAt (preferNew debVersion · ·) out item.1 item.2) out := by
  cases e with
  | other text h =>
    cases text with
    | none => rfl
    | some text => simp [collectEntry, content, stanzas, h text rfl]
  | packages stanzas ends =>
    have hreadable : ∀ s ∈ stanzas.map PackagesStanza.stanza, s.Readable := by
      intro s hs
      obtain ⟨s', -, rfl⟩ := List.mem_map.mp hs
      exact s'.readable
    have hloop : (parseControlFile (printStanzas (stanzas.map PackagesStanza.stanza) ends)).foldl
        (mergePackage debVersion) out = (stanzas.filterMap PackagesStanza.candidate).foldl
          (fun out item => RunningBest.keepAt (preferNew debVersion · ·) out item.1 item.2)
          out := by
      rw [parseControlFile_printStanzas hreadable, List.filterMap_map, List.foldl_filterMap,
        List.foldl_filterMap]
      congr 1
      funext out s
      rw [Function.comp_apply, PackagesStanza.candidate]
      cases s.stanza.package with
      | none => rfl
      | some pkg =>
        rw [Option.bind_some]
        refine (mergePackage_eq debVersion out pkg).trans ?_
        cases pkg.version <;> rfl
    rw [content, collectEntry, ListsEntry.stanzas]
    split
    · exact hloop
    · next hlooks =>
      cases stanzas with
      | nil => rfl
      | cons s stanzas => exact absurd (looksLikePackagesFile_packages s stanzas ends) hlooks

end ListsEntry

/-- The lookup after the loop, as the best of what the files have of the package. -/
theorem lookup_collectCandidates (files : List ListsEntry) (name : String) :
    (collectCandidates debVersion (some (files.map ListsEntry.content))).lookup name =
      RunningBest.best (preferNew debVersion · ·) (candidatesOf files name) := by
  have hloop : ∀ out : Candidates,
      (files.map ListsEntry.content).foldl (collectEntry debVersion) out =
        ((stanzasOf files).filterMap PackagesStanza.candidate).foldl
          (fun out item => RunningBest.keepAt (preferNew debVersion · ·) out item.1 item.2)
          out := by
    induction files with
    | nil => exact fun _ => rfl
    | cons e files ih =>
      intro out
      have hfiles : stanzasOf (e :: files) = e.stanzas ++ stanzasOf files := rfl
      rw [List.map_cons, List.foldl_cons, e.collectEntry_content, ih, hfiles,
        List.filterMap_append, List.foldl_append]
  rw [collectCandidates, hloop, RunningBest.lookup_foldl_keepAt, List.filter_filterMap,
    List.map_filterMap, List.filterMap_eq_flatMap_toList]
  rfl

/-! ## One preorder -/

theorem isNewer_irrefl (version : String) : ¬ isNewer debVersion version version := by
  unfold isNewer
  cases debVersion version with
  | none => simp only [decide_eq_true_eq, lt_irrefl, not_false_eq_true]
  | some v => simp only [decide_eq_true_eq, lt_irrefl, not_false_eq_true]

variable {debVersion}

theorem isNewer_asymm {new old : String} (h : isNewer debVersion new old) :
    ¬ isNewer debVersion old new := by
  unfold isNewer at h ⊢
  cases hnew : debVersion new with
  | none =>
    cases hold : debVersion old <;>
      simp only [hnew, hold, decide_eq_true_eq] at h ⊢ <;> exact lt_asymm h
  | some n =>
    cases hold : debVersion old <;>
      simp only [hnew, hold, decide_eq_true_eq] at h ⊢ <;> exact lt_asymm h

namespace Candidate

/-- No priority is below every priority. -/
def pin (c : Candidate) : WithBot Int := c.priority

variable (debVersion) in
/-- The priority first, then the version. -/
def key (c : Candidate) : WithBot Int ×ₗ WithBot V := toLex (c.pin, rank debVersion c.version)

theorem priority_le {c m : Candidate} (h : c.key debVersion ≤ m.key debVersion) {p : Int}
    (hp : c.priority = some p) : ∃ q, m.priority = some q ∧ p ≤ q := by
  have hle : c.pin ≤ m.pin := by
    rcases Prod.Lex.toLex_le_toLex.mp h with hlt | ⟨heq, -⟩
    · exact hlt.le
    · exact heq.le
  have hpin : c.pin = (p : WithBot Int) := hp
  rw [hpin] at hle
  obtain ⟨q, hq, hpq⟩ := WithBot.coe_le_iff.mp hle
  exact ⟨q, hq, hpq⟩

end Candidate

/-- A candidate that beats `d` hands this on to one of its version with the greatest key. -/
theorem preferNew_of_version_eq {c d m : Candidate} (hversion : c.version = m.version)
    (hc : c.key debVersion ≤ m.key debVersion) (hd : d.key debVersion ≤ m.key debVersion)
    (h : preferNew debVersion c d) : preferNew debVersion m d := by
  unfold preferNew at h ⊢
  cases hdp : d.priority with
  | none =>
    simp only [hdp] at h
    cases m.priority <;> simpa [← hversion] using h
  | some q =>
    obtain ⟨p, hmp, hqp⟩ := Candidate.priority_le hd hdp
    simp only [hmp]
    split
    · simpa using lt_of_le_of_ne hqp (Ne.symm ‹_›)
    · next hpq =>
      obtain rfl := not_not.mp hpq
      cases hcp : c.priority with
      | none => simpa [hcp, hdp, hversion] using h
      | some r =>
        obtain ⟨p', hmp', hrp⟩ := Candidate.priority_le hc hcp
        obtain rfl : p = p' := by simpa [hmp] using hmp'
        by_cases hr : r = p
        · simpa [hcp, hdp, hr, hversion] using h
        · simp [hcp, hdp, hr] at h
          omega

/-! ## Which candidates settle the choice -/

variable (debVersion) in
/-- The candidate has the greatest key and beats every other version by itself; and where its
    version stands without a priority too, no version is newer. -/
structure Decides (cs : List Candidate) (m : Candidate) : Prop where
  mem : m ∈ cs
  greatest : ∀ d ∈ cs, d.key debVersion ≤ m.key debVersion
  beats : ∀ d ∈ cs, d.version ≠ m.version → preferNew debVersion m d
  newest : (∃ c ∈ cs, c.version = m.version ∧ c.priority = none) →
    ∀ d ∈ cs, ¬ isNewer debVersion d.version m.version

variable (debVersion) in
def Settled (cs : List Candidate) : Prop := cs = [] ∨ ∃ m, Decides debVersion cs m

variable (debVersion) in
/-- The version is that of a candidate with the greatest key. -/
def IsMaximum (cs : List Candidate) (version : String) : Prop :=
  ∃ m ∈ cs, m.version = version ∧ ∀ d ∈ cs, d.key debVersion ≤ m.key debVersion

/-- What holds of the best once `m` has come. -/
structure StandsFor (cs : List Candidate) (m c : Candidate) : Prop where
  mem : c ∈ cs
  version : c.version = m.version
  priority : c.priority = none ∨ c.priority = m.priority

namespace Decides

variable {cs : List Candidate} {m : Candidate} (h : Decides debVersion cs m)
include h

/-- What `m` does not beat stands for it already. -/
theorem standsFor {old : Candidate} (hold : old ∈ cs) (hnot : ¬ preferNew debVersion m old) :
    StandsFor cs m old := by
  refine ⟨hold, not_not.mp fun hne => hnot (h.beats old hold hne), ?_⟩
  cases hq : old.priority with
  | none => exact .inl rfl
  | some q =>
    obtain ⟨p, hp, hqp⟩ := Candidate.priority_le (h.greatest old hold) hq
    by_cases hpq : p = q
    · exact .inr (by rw [hp, hpq])
    · refine absurd ?_ hnot
      simp only [preferNew, hp, hq]
      rw [if_pos hpq]
      exact decide_eq_true (lt_of_le_of_ne hqp (Ne.symm hpq))

/-- Nothing takes the place of what stands for `m`. -/
theorem not_preferNew {old new : Candidate} (hold : StandsFor cs m old) (hnew : new ∈ cs) :
    ¬ preferNew debVersion new old := by
  intro hnewer
  have hbeats : isNewer debVersion new.version m.version → preferNew debVersion m new :=
    fun hlt => h.beats new hnew fun heq => isNewer_irrefl debVersion m.version (heq ▸ hlt)
  rcases hold.priority with hpriority | hpriority
  · -- the versions decide
    refine h.newest ⟨old, hold.mem, hold.version, hpriority⟩ new hnew ?_
    cases hq : new.priority <;> simpa [preferNew, hpriority, hq, hold.version] using hnewer
  · cases hp : m.priority with
    | none =>
      refine h.newest ⟨m, h.mem, rfl, hp⟩ new hnew ?_
      cases hq : new.priority <;> simpa [preferNew, hpriority, hp, hq, hold.version] using hnewer
    | some p =>
      cases hq : new.priority with
      | none =>
        have hlt : isNewer debVersion new.version m.version := by
          simpa [preferNew, hq, hold.version] using hnewer
        exact isNewer_asymm hlt (by simpa [preferNew, hp, hq] using hbeats hlt)
      | some q =>
        obtain ⟨p', hp', hqp⟩ := Candidate.priority_le (h.greatest new hnew) hq
        obtain rfl : p = p' := by simpa [hp] using hp'
        simp only [preferNew, hq, hpriority, hp, hold.version] at hnewer
        split at hnewer
        · exact absurd (of_decide_eq_true hnewer) (not_lt.mpr hqp)
        · next heq =>
          obtain rfl := not_not.mp heq
          exact isNewer_asymm hnewer (by simpa [preferNew, hp, hq] using hbeats hnewer)

/-- The version is the same in every order. -/
theorem best_version {cs' : List Candidate} (hperm : cs.Perm cs') :
    (RunningBest.best (preferNew debVersion · ·) cs').map Candidate.version = some m.version := by
  obtain ⟨b, hbest, hb⟩ : ∃ b, RunningBest.best (preferNew debVersion · ·) cs' = some b ∧
      StandsFor cs m b :=
    RunningBest.best_of_stable (hperm.mem_iff.mp h.mem) ⟨h.mem, rfl, .inr rfl⟩
      (fun old hold hnot => h.standsFor (hperm.mem_iff.mpr hold) hnot)
      (fun old new hold hnew hnewer =>
        absurd hnewer (h.not_preferNew hold (hperm.mem_iff.mpr hnew)))
  rw [hbest, Option.map_some, hb.version]

end Decides

theorem Settled.perm {cs cs' : List Candidate} (h : Settled debVersion cs) (hperm : cs.Perm cs') :
    Settled debVersion cs' := by
  rcases h with rfl | ⟨m, hm⟩
  · exact .inl hperm.nil_eq.symm
  · refine .inr ⟨m, hperm.mem_iff.mp hm.mem, fun d hd => hm.greatest d (hperm.mem_iff.mpr hd),
      fun d hd => hm.beats d (hperm.mem_iff.mpr hd), ?_⟩
    rintro ⟨c, hc, hplain⟩ d hd
    exact hm.newest ⟨c, hperm.mem_iff.mpr hc, hplain⟩ d (hperm.mem_iff.mpr hd)

/-- Where every order gives the version of a greatest candidate, the candidates are settled. -/
theorem settled_of_orders {cs : List Candidate} {version : String}
    (hmax : IsMaximum debVersion cs version) (h : ∀ cs', cs.Perm cs' →
      (RunningBest.best (preferNew debVersion · ·) cs').map Candidate.version = some version) :
    Settled debVersion cs := by
  obtain ⟨m, hm, rfl, hgreatest⟩ := hmax
  have hall : ¬ ∃ cs' b, cs.Perm cs' ∧ RunningBest.best (preferNew debVersion · ·) cs' = some b ∧
      ¬ b.version = m.version := by
    rintro ⟨cs', b, hperm, hbest, hb⟩
    have hversion := h cs' hperm
    rw [hbest, Option.map_some, Option.some.injEq] at hversion
    exact hb hversion
  refine .inr ⟨m, hm, hgreatest, ?_, ?_⟩
  · -- else another version stays once it is first
    intro d hd hne
    by_contra hnot
    exact hall (RunningBest.exists_perm_of_unbeaten hd hne fun c hc hversion hbeats =>
      hnot (preferNew_of_version_eq hversion (hgreatest c hc) (hgreatest d hd) hbeats))
  · -- else the version without a priority is there first, and goes when `d` comes last
    rintro ⟨c, hc, hversion, hpriority⟩ d hd hnewer
    have hversions : ∀ c' : Candidate, preferNew debVersion c' c ↔
        isNewer debVersion c'.version m.version := by
      intro c'
      rw [← hversion]
      cases hp : c'.priority <;> simp [preferNew, hp, hpriority]
    have hne : d.version ≠ m.version := fun heq =>
      isNewer_irrefl debVersion m.version (heq ▸ hnewer)
    exact hall (RunningBest.exists_perm_of_beaten hc hd hne ((hversions d).mpr hnewer)
      fun c' _ hsame hbeats =>
        isNewer_irrefl debVersion m.version (hsame ▸ (hversions c').mp hbeats))

/-! ## The order of files and stanzas -/

theorem candidateVersion_eq (files : List ListsEntry) (name : String) :
    candidateVersion debVersion files name =
      (RunningBest.best (preferNew debVersion · ·) (candidatesOf files name)).map
        Candidate.version := by
  rw [candidateVersion, lookup_collectCandidates]

theorem candidatesOf_perm {files files' : List ListsEntry}
    (h : (stanzasOf files).Perm (stanzasOf files')) (name : String) :
    (candidatesOf files name).Perm (candidatesOf files' name) :=
  h.flatMap_right _

theorem ListsEntry.Reordered.refl (e : ListsEntry) : ListsEntry.Reordered e e := by
  cases e with
  | packages stanzas ends => exact .packages ends ends (.refl _)
  | other text h => exact .other text h h

namespace Rearranged

variable {files files' : List ListsEntry}

theorem of_perm (h : files.Perm files') : Rearranged files files' :=
  ⟨files', h, List.forall₂_same.mpr fun e _ => .refl e⟩

theorem stanzasOf_perm (h : Rearranged files files') :
    (stanzasOf files).Perm (stanzasOf files') := by
  obtain ⟨between, hperm, hsame⟩ := h
  refine (hperm.flatMap_right _).trans ?_
  clear hperm
  induction hsame with
  | nil => exact .refl _
  | cons hfile _ ih =>
    rw [stanzasOf, List.flatMap_cons, List.flatMap_cons]
    refine .append ?_ ih
    cases hfile with
    | packages ends ends' hperm => exact hperm
    | other text h h' => exact .refl _

end Rearranged

variable (debVersion) in
/-- The choice is the same for every order of the files and of their stanzas, and it is a
    maximum of the one preorder. -/
def OrderFree (files : List ListsEntry) (name : String) : Prop :=
  (∀ files', Rearranged files files' →
    candidateVersion debVersion files' name = candidateVersion debVersion files name) ∧
  ∀ version, candidateVersion debVersion files name = some version →
    IsMaximum debVersion (candidatesOf files name) version

theorem Settled.orderFree {files : List ListsEntry} {name : String}
    (h : Settled debVersion (candidatesOf files name)) : OrderFree debVersion files name := by
  rcases h with hnil | ⟨m, hm⟩
  · refine ⟨fun files' hfiles => ?_, fun version hversion => ?_⟩
    · have hperm := candidatesOf_perm hfiles.stanzasOf_perm name
      rw [hnil] at hperm
      rw [candidateVersion_eq, candidateVersion_eq, hnil, ← hperm.nil_eq]
    · rw [candidateVersion_eq, hnil] at hversion
      cases hversion
  · have hsame := hm.best_version (.refl _)
    refine ⟨fun files' hfiles => ?_, fun version hversion => ?_⟩
    · rw [candidateVersion_eq, candidateVersion_eq, hsame]
      exact hm.best_version (candidatesOf_perm hfiles.stanzasOf_perm name)
    · rw [candidateVersion_eq, hsame, Option.some.injEq] at hversion
      exact ⟨m, hm.mem, hversion, hm.greatest⟩

/-- The other way, where the files can be put so that the candidates come in any order. -/
theorem OrderFree.settled {files : List ListsEntry} {name : String}
    (h : OrderFree debVersion files name)
    (horders : ∀ cs', (candidatesOf files name).Perm cs' →
      ∃ files', Rearranged files files' ∧ candidatesOf files' name = cs') :
    Settled debVersion (candidatesOf files name) := by
  obtain ⟨hsame, hmax⟩ := h
  cases hversion : candidateVersion debVersion files name with
  | none =>
    rw [candidateVersion_eq, Option.map_eq_none_iff, RunningBest.best_eq_none] at hversion
    exact .inl hversion
  | some version =>
    refine settled_of_orders (hmax version hversion) fun cs' hperm => ?_
    obtain ⟨files', hfiles, rfl⟩ := horders cs' hperm
    rw [← candidateVersion_eq, hsame files' hfiles, hversion]

/-- **When the order does not matter.**  Whatever files the stanzas stand in, the choice is the
    same maximum for every order, exactly if the candidates of the package are settled.  For
    files that have at most one candidate of the package each, this is so for the files as
    they are. -/
theorem orderFree_iff_settled (files : List ListsEntry) (name : String) :
    ((∀ files', (stanzasOf files).Perm (stanzasOf files') → OrderFree debVersion files' name) ↔
      Settled debVersion (candidatesOf files name)) ∧
    ((∀ e ∈ files, (candidatesOf [e] name).length ≤ 1) →
      (OrderFree debVersion files name ↔ Settled debVersion (candidatesOf files name))) := by
  have hone : ∀ s ∈ stanzasOf files, (s.candidates name).length ≤ 1 := by
    intro s _
    rw [PackagesStanza.candidates, Option.length_toList]
    split <;> omega
  refine ⟨⟨fun h => ?_, fun h files' hperm => (h.perm (candidatesOf_perm hperm name)).orderFree⟩,
    fun hsingle => ⟨fun h => ?_, Settled.orderFree⟩⟩
  · -- all the stanzas in one file
    have hfile : stanzasOf [.packages (stanzasOf files) 0] = stanzasOf files :=
      List.flatMap_singleton ..
    have hcands : candidatesOf [.packages (stanzasOf files) 0] name = candidatesOf files name := by
      rw [candidatesOf, hfile, candidatesOf]
    rw [← hcands]
    refine (h [.packages (stanzasOf files) 0] (by rw [hfile])).settled fun cs' hperm => ?_
    rw [hcands] at hperm
    obtain ⟨stanzas', hstanzas, rfl⟩ := RunningBest.exists_perm_flatMap hone hperm
    refine ⟨[.packages stanzas' 0], ⟨_, .refl _, .cons (.packages 0 0 hstanzas) .nil⟩, ?_⟩
    rw [candidatesOf, stanzasOf, List.flatMap_singleton]
    rfl
  · refine h.settled fun cs' hperm => ?_
    have hflat : ∀ fs : List ListsEntry,
        fs.flatMap (fun e => candidatesOf [e] name) = candidatesOf fs name := by
      intro fs
      simp [candidatesOf, stanzasOf, List.flatMap_assoc]
    rw [← hflat] at hperm
    obtain ⟨files', hfiles, rfl⟩ := RunningBest.exists_perm_flatMap hsingle hperm
    exact ⟨files', .of_perm hfiles, (hflat files').symm⟩

def smallVersion : String → Option Nat
  | "1" => some 1
  | "2" => some 2
  | "3" => some 3
  | _ => none

def nginxFields (version : String) (priority : Option String) : List ControlField :=
  [⟨"Package", "nginx", []⟩, ⟨"Version", version, []⟩] ++
    priority.toList.map fun value => ⟨"Priority", value, []⟩

/-- A file of one stanza. -/
def nginxFile (version : String) (priority : Option String)
    (hwf : ∀ f ∈ nginxFields version priority, f.WellFormed) : ListsEntry :=
  .packages [{
    stanza :=
      { fields := nginxFields version priority
        nonempty := by simp [nginxFields]
        distinct := by cases priority <;> simp [nginxFields]
        wellFormed := hwf }
    readable := by constructor <;> cases priority <;> simp [Stanza.Simple, nginxFields]
    headed := rfl }] 1

/-- The first beats the last by its priority, and the one without a priority is newer than the
    first and older than the last. -/
def circle : List ListsEntry :=
  [nginxFile "1" (some "500") (by decide +kernel), nginxFile "2" none (by decide +kernel),
    nginxFile "3" (some "100") (by decide +kernel)]

theorem circle_not_orderFree : Rearranged circle (circle.rotate 1) ∧
    candidateVersion smallVersion circle "nginx" = some "3" ∧
    candidateVersion smallVersion (circle.rotate 1) "nginx" = some "1" := by
  refine ⟨.of_perm (List.perm_append_comm : ([_] ++ [_, _] : List ListsEntry).Perm _), ?_, ?_⟩
  · rw [candidateVersion_eq]
    decide +kernel
  · rw [candidateVersion_eq]
    decide +kernel

end Bosun
