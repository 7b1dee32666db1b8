import FloatCases.Command.Arguments
import Mathlib.Tactic.Common

/-!
Argument lists with and without the option that everything is logged. Main statements: the option
may be put in front of the arguments unless it is there already, and wherever it is put in, the
request is the same in all else.
-/
namespace FloatCases.Command

variable {s s' : Settings} {phase : Phase} {r r' : Request} {arg v : Text}
  {args before after : List Text} {set : Settings → Option Settings}

/-- Settings with everything logged. -/
def Settings.loud (s : Settings) : Settings :=
  { s with verbose := true }

/-- A request with everything logged. -/
def Request.loud (r : Request) : Request :=
  { r with verbose := true }

/-- A request with no more logged than the environment says. -/
def Request.quiet (r : Request) : Request :=
  { r with verbose := false }

/-- The words for the option that everything is logged. -/
def verboseWords : List Text :=
  ["-v".toList, "--verbose".toList]

namespace Settings

/-- A change of settings that has nothing to do with the log. -/
structure IgnoresLog (set : Settings → Option Settings) : Prop where
  loud : ∀ s, set s.loud = (set s).map Settings.loud
  verbose : ∀ s s', set s = some s' → s'.verbose = s.verbose

theorem ignoresLog_setAll? : IgnoresLog setAll? where
  loud s := by
    unfold setAll? Settings.loud
    split <;> rfl
  verbose s s' h := by
    unfold setAll? at h
    split at h
    · cases h
    · cases h
      rfl

theorem ignoresLog_setFormat? (value : Text) : IgnoresLog (setFormat? · value) where
  loud s := by
    unfold setFormat? Settings.loud
    cases s.format <;> cases FloatFormat.ofName? value <;> rfl
  verbose s s' h := by
    unfold setFormat? at h
    split at h
    · cases h
      rfl
    · cases h

theorem ignoresLog_setPath? (path : Text) : IgnoresLog (setPath? · path) where
  loud s := by
    unfold setPath? Settings.loud
    split <;> rfl
  verbose s s' h := by
    unfold setPath? at h
    split at h
    · cases h
    · cases h
      rfl

end Settings

namespace Effect

/--
What the effect of an argument says of its effect with everything logged. An end of the reading is
no request. Where everything is logged already, it stays so; where it is not, the argument either
has the same effect or asks for it, which may not be done again.
-/
def Louder (logged : Bool) : Effect → Effect → Prop
  | stop outcome, _ => ∀ r, outcome ≠ .convert r
  | next phase s, e =>
    if logged then s.verbose = true
    else e = if s.verbose then stop .misuse else next phase s.loud

@[simp]
theorem louder_help (logged : Bool) (e : Effect) : (stop .help).Louder logged e := by
  simp [Louder]

@[simp]
theorem louder_misuse (logged : Bool) (e : Effect) : (stop .misuse).Louder logged e := by
  simp [Louder]

theorem louder_next (phase : Phase) (s : Settings) :
    (next phase s).Louder s.verbose (next phase s.loud) := by
  cases hs : s.verbose <;> simp [Louder, hs]

/-- What leads on with everything logged does so after the option has been given. -/
theorem Louder.misuse {e e' : Effect} (h : e.Louder true e') : e.Louder false (stop .misuse) := by
  cases e with
  | stop outcome => exact h
  | next phase s =>
    have hs : s.verbose = true := h
    simp [Louder, hs]

theorem louder_orMisuse (hset : Settings.IgnoresLog set) (phase : Phase) (s : Settings) :
    (orMisuse phase (set s)).Louder s.verbose (orMisuse phase (set s.loud)) := by
  rw [hset.loud]
  cases h : set s with
  | none => exact louder_misuse _ _
  | some s' =>
    rw [← hset.verbose s s' h]
    exact louder_next phase s'

theorem louder_setVerbose? (phase : Phase) (s : Settings) :
    (orMisuse phase s.setVerbose?).Louder s.verbose (orMisuse phase s.loud.setVerbose?) := by
  cases hs : s.verbose <;> simp [Settings.setVerbose?, Settings.loud, hs, orMisuse, Louder]

theorem louder_ofLetters (s : Settings) (letters : Text) :
    (ofLetters s letters).Louder s.verbose (ofLetters s.loud letters) := by
  fun_induction ofLetters s letters with
  | case1 s => exact louder_next .options s
  | case2 | case3 | case5 | case10 => simp
  | case4 s rest s' h ih =>
    obtain ⟨hs, rfl⟩ := by simpa [Settings.setVerbose?] using h
    have hagain : ofLetters s.loud ('v' :: rest) = stop .misuse := by
      simp [ofLetters, Settings.setVerbose?, Settings.loud]
    rw [hagain, hs]
    exact ih.misuse
  | case6 s rest s' h ih =>
    rw [ofLetters, Settings.ignoresLog_setAll?.loud, h,
      ← Settings.ignoresLog_setAll?.verbose s s' h]
    exact ih
  | case7 s => exact louder_next .format s
  | case8 s value =>
    rw [ofLetters]
    exact louder_orMisuse (Settings.ignoresLog_setFormat? value) .options s
  | case9 s value hne heq =>
    rw [ofLetters]
    · exact louder_orMisuse (Settings.ignoresLog_setFormat? value) .options s
    · exact hne
    · exact heq

theorem louder_ofWord (s : Settings) (name : Text) (value : Option Text) :
    (ofWord s name value).Louder s.verbose (ofWord s.loud name value) := by
  cases value with
  | none =>
    simp only [ofWord]
    split_ifs
    · simp
    · exact louder_setVerbose? .options s
    · exact louder_orMisuse Settings.ignoresLog_setAll? .options s
    · exact louder_next .format s
    · simp
  | some value =>
    simp only [ofWord]
    split_ifs
    · exact louder_orMisuse (Settings.ignoresLog_setFormat? value) .options s
    · simp

/-- The effect of an argument with everything logged is known from its effect as it is. -/
theorem louder_of (s : Settings) (arg : Text) (phase : Phase) :
    (Effect.of s arg phase).Louder s.verbose (Effect.of s.loud arg phase) := by
  cases phase with
  | options =>
    simp only [Effect.of]
    unfold ofArgument
    split
    · exact louder_next .paths s
    · exact louder_ofWord s _ _
    · exact louder_ofLetters s _
    · exact louder_orMisuse (Settings.ignoresLog_setPath? arg) .options s
  | format => exact louder_orMisuse (Settings.ignoresLog_setFormat? arg) .options s
  | paths => exact louder_orMisuse (Settings.ignoresLog_setPath? arg) .paths s

end Effect

namespace Action

theorem finish_eq_convert_iff :
    s.finish = .convert r ↔ s = ⟨r.verbose, r.all, r.format, some r.path⟩ := by
  obtain ⟨verbose, all, format, path⟩ := s
  obtain ⟨verbose', all', format', path'⟩ := r
  cases path <;> simp [Settings.finish]

theorem finish_of_readFrom_nil (h : readFrom phase s [] = .convert r) :
    s = ⟨r.verbose, r.all, r.format, some r.path⟩ := by
  cases phase with
  | format => simp [readFrom] at h
  | options | paths => exact finish_eq_convert_iff.mp h

/-- An argument list that is accepted goes on after its first argument. -/
theorem exists_next_of_readFrom (h : readFrom phase s (arg :: args) = .convert r) :
    ∃ phase' s', Effect.of s arg phase = .next phase' s' ∧
      readFrom phase' s' args = .convert r := by
  have hl := Effect.louder_of s arg phase
  rw [readFrom] at h
  cases he : Effect.of s arg phase with
  | stop outcome =>
    rw [he] at h hl
    exact absurd h (hl r)
  | next phase' s' =>
    rw [he] at h
    exact ⟨phase', s', rfl, h⟩

theorem readFrom_of_next {phase' : Phase} (h : Effect.of s arg phase = .next phase' s')
    (args : List Text) : readFrom phase s (arg :: args) = readFrom phase' s' args := by
  rw [readFrom, h]

/-- What has been asked for stays asked for. -/
theorem verbose_of_readFrom (hs : s.verbose = true) (h : readFrom phase s args = .convert r) :
    r.verbose = true := by
  induction args generalizing phase s with
  | nil =>
    rw [finish_of_readFrom_nil h] at hs
    exact hs
  | cons arg args ih =>
    obtain ⟨phase', s', he, hr⟩ := exists_next_of_readFrom h
    have hl := Effect.louder_of s arg phase
    rw [he, hs] at hl
    exact ih hl hr

/-- Arguments are read on with everything logged as without, unless they ask for it again. -/
theorem readFrom_loud (hs : s.verbose = false) (h : readFrom phase s args = .convert r) :
    readFrom phase s.loud args = if r.verbose then .misuse else .convert r.loud := by
  induction args generalizing phase s with
  | nil =>
    have hfinish := finish_of_readFrom_nil h
    have hr : r.verbose = false := by rwa [hfinish] at hs
    rw [hr, if_neg Bool.false_ne_true, hfinish]
    cases phase with
    | format => simp [readFrom] at h
    | options | paths => rfl
  | cons arg args ih =>
    obtain ⟨phase', s', he, hr⟩ := exists_next_of_readFrom h
    have hl := Effect.louder_of s arg phase
    rw [he, hs] at hl
    cases hs' : s'.verbose with
    | true =>
      have hagain : Effect.of s.loud arg phase = .stop .misuse := by
        simpa [Effect.Louder, hs'] using hl
      rw [readFrom, hagain, if_pos (verbose_of_readFrom hs' hr)]
    | false =>
      have hsame : Effect.of s.loud arg phase = .next phase' s'.loud := by
        simpa [Effect.Louder, hs'] using hl
      rw [readFrom_of_next hsame, ih hs' hr]

theorem verboseWord_cases (hv : v ∈ verboseWords) :
    v = "-v".toList ∨ v = "--verbose".toList := by
  simpa only [verboseWords, List.mem_cons, List.not_mem_nil, or_false] using hv

/-- Where an option can stand, the option that everything is logged asks for just that. -/
theorem of_verboseWord (hv : v ∈ verboseWords) (s : Settings) :
    Effect.of s v .options = .orMisuse .options s.setVerbose? := by
  rcases verboseWord_cases hv with rfl | rfl
  · change Effect.ofLetters s ['v'] = _
    rw [Effect.ofLetters]
    cases s.setVerbose? <;> rfl
  · rfl

/-- After the end of the options there is one path at most. -/
theorem eq_nil_of_readFrom_paths (hs : s.path.isSome = true)
    (h : readFrom .paths s args = .convert r) : args = [] := by
  cases args with
  | nil => rfl
  | cons arg args =>
    obtain ⟨phase', s', he, -⟩ := exists_next_of_readFrom h
    simp [Effect.of, Settings.setPath?, hs, Effect.orMisuse] at he

/-- The option may be put in front of the arguments unless everything is to be logged already. -/
theorem ofArguments_verboseWord_cons (hv : v ∈ verboseWords) (h : ofArguments args = .convert r) :
    ofArguments (v :: args) = if r.verbose then .misuse else .convert r.loud := by
  have he : Effect.of .initial v .options = .next .options Settings.initial.loud :=
    of_verboseWord hv .initial
  rw [ofArguments, readFrom_of_next he]
  exact readFrom_loud rfl h

/-- Wherever the option is put in, nothing but the log is asked for in another way. -/
theorem eq_loud_of_insert (hv : v ∈ verboseWords)
    (h : readFrom phase s (before ++ after) = .convert r)
    (h' : readFrom phase s (before ++ v :: after) = .convert r') :
    r.verbose = false ∧ r' = r.loud := by
  induction before generalizing phase s with
  | nil =>
    obtain ⟨phase', s', he, hr'⟩ := exists_next_of_readFrom h'
    cases phase with
    | options =>
      rw [of_verboseWord hv] at he
      cases hs : s.verbose with
      | true => simp [Settings.setVerbose?, hs, Effect.orMisuse] at he
      | false =>
        obtain ⟨rfl, rfl⟩ := by simpa [Settings.setVerbose?, hs, Effect.orMisuse] using he
        have hloud := (readFrom_loud hs h).symm.trans hr'
        cases hr : r.verbose with
        | true => simp [hr] at hloud
        | false => exact ⟨rfl, by simpa [hr, eq_comm] using hloud⟩
    | format =>
      -- The word is no name of a format.
      have hname : FloatFormat.ofName? v = none := by
        rcases verboseWord_cases hv with rfl | rfl <;> rfl
      simp [Effect.of, Settings.setFormat?, hname, Effect.orMisuse] at he
    | paths =>
      -- The word is the one path then, so that there is none without it.
      cases hp : s.path with
      | some path => simp [Effect.of, Settings.setPath?, hp, Effect.orMisuse] at he
      | none =>
        have hne : v ≠ [] := by
          rcases verboseWord_cases hv with rfl | rfl <;> decide
        obtain ⟨rfl, rfl⟩ := by
          simpa [Effect.of, Settings.setPath?, hp, hne, Effect.orMisuse] using he
        rw [eq_nil_of_readFrom_paths rfl hr', List.append_nil] at h
        rw [finish_of_readFrom_nil h] at hp
        cases hp
  | cons arg before ih =>
    obtain ⟨phase', s', he, hr⟩ := exists_next_of_readFrom h
    rw [List.cons_append, readFrom_of_next he] at h'
    exact ih hr h'

end Action
end FloatCases.Command
