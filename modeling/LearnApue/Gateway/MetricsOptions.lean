import LearnApue.Foundation.Decimal
import LearnApue.Gateway.MetricsTool

set_option autoImplicit false

/-!
# Gateway: the command line of `gateway-metrics` (`gateway_metrics.c`)

`parse_options` reads targets, times and a path.  What it accepts is well formed, and
every well-formed set of options has a command line that gives it back
(`parseOptions_wellFormed`).
-/

namespace LearnApue.Gateway.MetricsTool

open LearnApue.Foundation

/-! ## The transcription -/

/-- `GW_METRICS_MAX_TARGETS`. -/
def maxTargets : Nat := 16

/-- `GW_METRICS_LABEL_CAPACITY`. -/
def labelCapacity : Nat := 32

/-- `metrics_options`. -/
structure MetricsOptions where
  targets : List MetricsTarget
  durationSec : Int
  intervalMs : Int
  summaryPath : Option Bytes
  deriving DecidableEq

/-- `parse_long`. -/
def parseLong (text : Bytes) (minimum maximum : Int) : Option Int :=
  let parsed := strtoll text
  if parsed.erange ∨ ¬ parsed.converted ∨ parsed.rest ≠ [] ∨ parsed.value < minimum ∨
      parsed.value > maximum then none
  else some parsed.value

/-- The characters of a label. -/
def isLabelByte (b : Byte) : Bool :=
  isAlnum b || b == byte '_' || b == byte '-' || b == byte '.'

/-- `label_is_safe`. -/
def labelIsSafe (label : Bytes) : Bool :=
  if label.length = 0 ∨ label.length ≥ labelCapacity then false else label.all isLabelByte

/-- `strchr`: the text behind the first occurrence of a byte. -/
def strchr (b : Byte) : Bytes → Option Bytes
  | [] => none
  | first :: rest => if first = b then some rest else strchr b rest

/-- `add_target`, in a process with the given number. -/
def addTarget (getpid : Int) (options : MetricsOptions) (argument : Bytes) :
    Option MetricsOptions :=
  match strchr (byte '=') argument with
  | none => none
  | some value =>
      if strchr (byte '=') value ≠ none ∨ options.targets.length ≥ maxTargets then none
      else
        let label := argument.take (argument.length - (value.length + 1))
        if ¬ labelIsSafe label then none
        else if options.targets.any fun target => target.label = label then none
        else
          let pid := if value = ascii "self" then some getpid else parseLong value 1 2147483647
          pid.map fun pid =>
            { options with targets := options.targets ++ [MetricsTarget.added label pid] }

/-- An option that has a value behind it. -/
def applyOption (getpid : Int) (options : MetricsOptions) (argument value : Bytes) :
    Option MetricsOptions :=
  if argument = ascii "--target" then addTarget getpid options value
  else if argument = ascii "--duration-sec" then
    (parseLong value 1 86400).map fun durationSec => { options with durationSec }
  else if argument = ascii "--interval-ms" then
    (parseLong value 100 60000).map fun intervalMs => { options with intervalMs }
  else if argument = ascii "--summary-output" then
    if options.summaryPath ≠ none ∨ value = [] then none
    else some { options with summaryPath := some value }
  else none

/-- What a command line comes to. -/
inductive Parsed where
  | help
  | rejected
  | accepted (options : MetricsOptions)
  deriving DecidableEq

/-- The loop of `parse_options`. -/
def parseArguments (getpid : Int) (options : MetricsOptions) : List Bytes → Parsed
  | [] => if options.targets.length = 0 then .rejected else .accepted options
  | [argument] => if argument = ascii "--help" then .help else .rejected
  | argument :: value :: rest =>
      if argument = ascii "--help" then .help
      else
        match applyOption getpid options argument value with
        | none => .rejected
        | some options => parseArguments getpid options rest

/-- The options before the first argument. -/
def MetricsOptions.default : MetricsOptions := ⟨[], 5, 1000, none⟩

/-- `parse_options`, of the arguments behind the name of the program. -/
def parseOptions (getpid : Int) (arguments : List Bytes) : Parsed :=
  parseArguments getpid MetricsOptions.default arguments

/-! ## Well-formed options -/

/-- A target as `add_target` leaves it. -/
structure MetricsTarget.WellFormed (target : MetricsTarget) : Prop where
  fresh : target = MetricsTarget.added target.label target.pid
  safe : labelIsSafe target.label = true
  pid : 1 ≤ target.pid ∧ target.pid ≤ 2147483647

/-- Options between two arguments. -/
structure MetricsOptions.Partly (options : MetricsOptions) : Prop where
  count : options.targets.length ≤ maxTargets
  targets : ∀ target ∈ options.targets, target.WellFormed
  distinct : (options.targets.map MetricsTarget.label).Nodup
  duration : 1 ≤ options.durationSec ∧ options.durationSec ≤ 86400
  interval : 100 ≤ options.intervalMs ∧ options.intervalMs ≤ 60000
  summary : ∀ path, options.summaryPath = some path → path ≠ [] ∧ nul ∉ path

/-- Options of which a run can start. -/
structure MetricsOptions.WellFormed (options : MetricsOptions) : Prop where
  partly : options.Partly
  some : options.targets ≠ []

/-- The argument of a target. -/
def MetricsTarget.argument (target : MetricsTarget) : Bytes :=
  target.label ++ byte '=' :: decimalInt target.pid

/-- A command line for a set of options. -/
def MetricsOptions.arguments (options : MetricsOptions) : List Bytes :=
  (options.targets.flatMap fun target => [ascii "--target", target.argument]) ++
    [ascii "--duration-sec", decimalInt options.durationSec, ascii "--interval-ms",
      decimalInt options.intervalMs] ++
    (options.summaryPath.toList.flatMap fun path => [ascii "--summary-output", path])

/-! ## Numbers, labels and targets -/

theorem parseLong_bounds {text : Bytes} {minimum maximum value : Int}
    (h : parseLong text minimum maximum = some value) : minimum ≤ value ∧ value ≤ maximum := by
  unfold parseLong at h
  dsimp only at h
  split at h
  · cases h
  · rename_i hnot
    rw [← Option.some.inj h]
    omega

/-- A printed number is read again. -/
theorem parseLong_decimalInt {minimum maximum value : Int} (hlow : minimum ≤ value)
    (hhigh : value ≤ maximum) (hfits : -2 ^ 63 ≤ value ∧ value < 2 ^ 63) :
    parseLong (decimalInt value) minimum maximum = some value := by
  have hread := strtoll_decimalInt hfits.1 hfits.2 endsNumeral_nil
  rw [List.append_nil] at hread
  rw [parseLong, hread, if_neg (by simp [hlow, hhigh])]

theorem labelIsSafe_iff {label : Bytes} :
    labelIsSafe label = true ↔
      label ≠ [] ∧ label.length < labelCapacity ∧ ∀ b ∈ label, isLabelByte b = true := by
  unfold labelIsSafe
  split
  · rename_i hlength
    constructor
    · intro h
      cases h
    · rintro ⟨hne, hfits, -⟩
      have := List.length_pos_of_ne_nil hne
      omega
  · rename_i hlength
    rw [not_or, List.length_eq_zero_iff] at hlength
    rw [List.all_eq_true]
    exact ⟨fun h => ⟨hlength.1, by omega, h⟩, fun h => h.2.2⟩

/-- No label has a byte that is none of a label. -/
theorem notMem_of_labelIsSafe {label : Bytes} {b : Byte} (h : labelIsSafe label = true)
    (hb : isLabelByte b = false) : b ∉ label := fun hmem =>
  Bool.false_ne_true (hb.symm.trans ((labelIsSafe_iff.mp h).2.2 b hmem))

theorem strchr_of_notMem {b : Byte} {text : Bytes} (h : b ∉ text) : strchr b text = none := by
  induction text with
  | nil => rfl
  | cons first rest ih =>
    rw [List.mem_cons, not_or] at h
    rw [strchr, if_neg (Ne.symm h.1), ih h.2]

theorem strchr_front {b : Byte} {front : Bytes} (h : b ∉ front) (behind : Bytes) :
    strchr b (front ++ b :: behind) = some behind := by
  induction front with
  | nil => rw [List.nil_append, strchr, if_pos rfl]
  | cons first rest ih =>
    rw [List.mem_cons, not_or] at h
    rw [List.cons_append, strchr, if_neg (Ne.symm h.1), ih h.2]

/-- The bytes of a printed number. -/
theorem mem_decimalInt {value : Int} (h : 0 ≤ value) {b : Byte} (hb : b ∈ decimalInt value) :
    isDigit b = true := by
  rw [decimalInt_of_nonneg h] at hb
  exact isDigit_of_mem_decimalNat hb

theorem any_label_iff {targets : List MetricsTarget} {label : Bytes} :
    (targets.any fun target => target.label = label) = true ↔
      label ∈ targets.map MetricsTarget.label := by
  simp

variable {getpid : Int} {options next : MetricsOptions}

/-- What `add_target` adds. -/
theorem addTarget_cases {argument : Bytes} (hpid : 1 ≤ getpid ∧ getpid ≤ 2147483647)
    (h : addTarget getpid options argument = some next) :
    ∃ target : MetricsTarget, target.WellFormed ∧
      target.label ∉ options.targets.map MetricsTarget.label ∧
      options.targets.length < maxTargets ∧
      next = { options with targets := options.targets ++ [target] } := by
  unfold addTarget at h
  split at h
  · cases h
  · rename_i value _
    dsimp only at h
    split at h
    · cases h
    · rename_i hroom
      rw [not_or] at hroom
      split at h
      · cases h
      · rename_i hsafe
        split at h
        · cases h
        · rename_i hnew
          obtain ⟨pid, hread, rfl⟩ := Option.map_eq_some_iff.mp h
          rw [any_label_iff] at hnew
          refine ⟨_, ⟨rfl, not_not.mp hsafe, ?_⟩, hnew, not_le.mp hroom.2, rfl⟩
          split at hread
          · rw [← Option.some.inj hread]
            exact hpid
          · exact parseLong_bounds hread

/-- The argument of a target adds the target. -/
theorem addTarget_argument {target : MetricsTarget} (h : target.WellFormed)
    (hnew : target.label ∉ options.targets.map MetricsTarget.label)
    (hroom : options.targets.length < maxTargets) :
    addTarget getpid options target.argument =
      some { options with targets := options.targets ++ [target] } := by
  have hlabel : byte '=' ∉ target.label := notMem_of_labelIsSafe h.safe (by decide)
  have hnonneg : 0 ≤ target.pid := le_trans (by decide) h.pid.1
  have hfits : -2 ^ 63 ≤ target.pid ∧ target.pid < 2 ^ 63 :=
    ⟨by omega, lt_of_le_of_lt h.pid.2 (by decide)⟩
  have hdigits : ∀ b ∈ decimalInt target.pid, isDigit b = true := fun b => mem_decimalInt hnonneg
  have hvalue : byte '=' ∉ decimalInt target.pid := by
    intro hmem
    exact absurd (hdigits _ hmem) (by decide)
  have hself : decimalInt target.pid ≠ ascii "self" := by
    intro heq
    exact absurd (hdigits (byte 's') (by rw [heq]; decide)) (by decide)
  have htake : target.argument.take
      (target.argument.length - ((decimalInt target.pid).length + 1)) = target.label := by
    rw [MetricsTarget.argument, List.length_append, List.length_cons, Nat.add_sub_cancel,
      List.take_left]
  unfold addTarget
  rw [MetricsTarget.argument, strchr_front hlabel, ← MetricsTarget.argument]
  dsimp only
  rw [strchr_of_notMem hvalue, if_neg (by simpa using hroom), htake, if_neg (not_not.mpr h.safe),
    if_neg (any_label_iff.not.mpr hnew), if_neg hself, parseLong_decimalInt h.pid.1 h.pid.2 hfits, Option.map_some,
    ← h.fresh]

/-! ## The loop over the arguments -/

theorem partly_default : MetricsOptions.default.Partly := by
  refine ⟨Nat.zero_le _, ?_, List.nodup_nil, by decide, by decide, ?_⟩
  · intro target h
    cases h
  · intro path h
    cases h

theorem MetricsOptions.Partly.addTarget {target : MetricsTarget} (h : options.Partly)
    (htarget : target.WellFormed)
    (hnew : target.label ∉ options.targets.map MetricsTarget.label)
    (hroom : options.targets.length < maxTargets) :
    MetricsOptions.Partly { options with targets := options.targets ++ [target] } where
  count := by
    rw [List.length_append, List.length_singleton]
    omega
  targets := by
    intro other hother
    rcases List.mem_append.mp hother with hold | hlast
    · exact h.targets other hold
    · rw [List.mem_singleton.mp hlast]
      exact htarget
  distinct := by
    rw [List.map_append, List.map_singleton, List.nodup_append]
    refine ⟨h.distinct, List.nodup_singleton _, ?_⟩
    rintro label hold _ hlast rfl
    exact hnew (List.mem_singleton.mp hlast ▸ hold)
  duration := h.duration
  interval := h.interval
  summary := h.summary

/-- One option keeps the options well formed. -/
theorem applyOption_partly {argument value : Bytes} (hpid : 1 ≤ getpid ∧ getpid ≤ 2147483647)
    (h : options.Partly) (hvalue : nul ∉ value)
    (hstep : applyOption getpid options argument value = some next) : next.Partly := by
  unfold applyOption at hstep
  split at hstep
  · obtain ⟨target, htarget, hnew, hroom, rfl⟩ := addTarget_cases hpid hstep
    exact h.addTarget htarget hnew hroom
  · split at hstep
    · obtain ⟨durationSec, hread, rfl⟩ := Option.map_eq_some_iff.mp hstep
      exact ⟨h.count, h.targets, h.distinct, parseLong_bounds hread, h.interval, h.summary⟩
    · split at hstep
      · obtain ⟨intervalMs, hread, rfl⟩ := Option.map_eq_some_iff.mp hstep
        exact ⟨h.count, h.targets, h.distinct, h.duration, parseLong_bounds hread, h.summary⟩
      · split at hstep
        · split at hstep
          · cases hstep
          · rename_i hpath
            rw [not_or] at hpath
            cases hstep
            refine ⟨h.count, h.targets, h.distinct, h.duration, h.interval, ?_⟩
            rintro path ⟨⟩
            exact ⟨hpath.2, hvalue⟩
        · cases hstep

theorem parseArguments_wellFormed (hpid : 1 ≤ getpid ∧ getpid ≤ 2147483647)
    (arguments : List Bytes) {final : MetricsOptions} (h : options.Partly)
    (hplain : ∀ argument ∈ arguments, nul ∉ argument)
    (haccepted : parseArguments getpid options arguments = .accepted final) :
    final.WellFormed := by
  induction arguments using List.twoStepInduction generalizing options with
  | nil =>
    rw [parseArguments] at haccepted
    split at haccepted
    · cases haccepted
    · rename_i hsome
      cases haccepted
      exact ⟨h, fun hnil => hsome (by rw [hnil, List.length_nil])⟩
  | singleton argument =>
    rw [parseArguments] at haccepted
    split at haccepted <;> cases haccepted
  | cons_cons argument value rest ih _ =>
    rw [parseArguments] at haccepted
    split at haccepted
    · cases haccepted
    · have hvalue := hplain value (List.mem_cons_of_mem _ List.mem_cons_self)
      cases hstep : applyOption getpid options argument value with
      | none =>
        rw [hstep] at haccepted
        cases haccepted
      | some next =>
        rw [hstep] at haccepted
        exact ih (applyOption_partly hpid h hvalue hstep)
          (fun later hlater => hplain later (by simp [hlater])) haccepted

/-! ## The command line of well-formed options -/

/-- An option with a good value is passed. -/
theorem parseArguments_option {argument value : Bytes} (hhelp : argument ≠ ascii "--help")
    (hstep : applyOption getpid options argument value = some next) (rest : List Bytes) :
    parseArguments getpid options (argument :: value :: rest) =
      parseArguments getpid next rest := by
  rw [parseArguments, if_neg hhelp, hstep]

theorem parseArguments_targets (more : List MetricsTarget) (rest : List Bytes)
    (h : MetricsOptions.Partly { options with targets := options.targets ++ more }) :
    parseArguments getpid options
        ((more.flatMap fun target => [ascii "--target", target.argument]) ++ rest) =
      parseArguments getpid { options with targets := options.targets ++ more } rest := by
  induction more generalizing options with
  | nil => rw [List.append_nil, List.flatMap_nil, List.nil_append]
  | cons target later ih =>
    have hcount := h.count
    have hdistinct := h.distinct
    rw [List.length_append, List.length_cons] at hcount
    rw [List.map_append, List.map_cons, List.nodup_append] at hdistinct
    have hnew : target.label ∉ options.targets.map MetricsTarget.label := fun hmem =>
      hdistinct.2.2 _ hmem _ List.mem_cons_self rfl
    have htarget := h.targets target (List.mem_append_right _ List.mem_cons_self)
    have hstep : addTarget getpid options target.argument = _ :=
      addTarget_argument htarget hnew (by omega)
    rw [List.flatMap_cons, List.append_assoc, List.cons_append, List.cons_append, List.nil_append,
      parseArguments_option (by decide) (by rw [applyOption, if_pos rfl, hstep])]
    have hcons : options.targets ++ target :: later = options.targets ++ [target] ++ later := by
      rw [List.append_assoc, List.singleton_append]
    rw [ih (by rw [← hcons]; exact h), hcons]

/-- The command line of well-formed options gives them back. -/
theorem parseOptions_arguments (h : options.WellFormed) :
    parseOptions getpid options.arguments = .accepted options := by
  obtain ⟨targets, durationSec, intervalMs, summaryPath⟩ := options
  obtain ⟨hpartly, hsome⟩ := h
  have hduration : 1 ≤ durationSec ∧ durationSec ≤ 86400 := hpartly.duration
  have hinterval : 100 ≤ intervalMs ∧ intervalMs ≤ 60000 := hpartly.interval
  have htargets : MetricsOptions.Partly ⟨[] ++ targets, 5, 1000, none⟩ :=
    ⟨hpartly.count, hpartly.targets, hpartly.distinct, partly_default.duration,
      partly_default.interval, partly_default.summary⟩
  have hdurationStep : applyOption getpid ⟨targets, 5, 1000, none⟩ (ascii "--duration-sec")
      (decimalInt durationSec) = some ⟨targets, durationSec, 1000, none⟩ := by
    rw [applyOption, if_neg (by decide), if_pos rfl,
      parseLong_decimalInt hduration.1 hduration.2 (by omega), Option.map_some]
  have hintervalStep : applyOption getpid ⟨targets, durationSec, 1000, none⟩
      (ascii "--interval-ms") (decimalInt intervalMs) =
        some ⟨targets, durationSec, intervalMs, none⟩ := by
    rw [applyOption, if_neg (by decide), if_neg (by decide), if_pos rfl,
      parseLong_decimalInt hinterval.1 hinterval.2 (by omega), Option.map_some]
  have hend : ∀ path, parseArguments getpid ⟨targets, durationSec, intervalMs, path⟩ [] =
      .accepted ⟨targets, durationSec, intervalMs, path⟩ := by
    intro path
    rw [parseArguments, if_neg fun hzero => hsome (List.length_eq_zero_iff.mp hzero)]
  unfold parseOptions MetricsOptions.arguments MetricsOptions.default
  rw [List.append_assoc, parseArguments_targets targets _ htargets, List.nil_append,
    List.cons_append, List.cons_append, parseArguments_option (by decide) hdurationStep,
    List.cons_append, List.cons_append, parseArguments_option (by decide) hintervalStep,
    List.nil_append]
  cases summaryPath with
  | none => exact hend none
  | some path =>
    have hpath := (hpartly.summary path rfl).1
    have hpathStep : applyOption getpid ⟨targets, durationSec, intervalMs, none⟩
        (ascii "--summary-output") path = some ⟨targets, durationSec, intervalMs, some path⟩ := by
      rw [applyOption, if_neg (by decide), if_neg (by decide), if_neg (by decide), if_pos rfl,
        if_neg (by simp [hpath])]
    rw [Option.toList_some, List.flatMap_singleton, parseArguments_option (by decide) hpathStep]
    exact hend (some path)

/-- The command line of well-formed options is one of C strings. -/
theorem nul_notMem_arguments (h : options.WellFormed) :
    ∀ argument ∈ options.arguments, nul ∉ argument := by
  have hdecimal : ∀ value, 0 ≤ value → nul ∉ decimalInt value := by
    intro value hvalue hmem
    exact absurd (mem_decimalInt hvalue hmem) (by decide)
  have hduration := h.partly.duration
  have hinterval := h.partly.interval
  intro argument hargument
  rcases List.mem_append.mp hargument with hfront | hpath
  · rcases List.mem_append.mp hfront with htarget | htimes
    · obtain ⟨target, htarget, hmem⟩ := List.mem_flatMap.mp htarget
      have hgood := h.partly.targets target htarget
      have hlabel : nul ∉ target.label := notMem_of_labelIsSafe hgood.safe (by decide)
      have hpid := hdecimal target.pid (le_trans (by decide) hgood.pid.1)
      have hequals : nul ≠ byte '=' := by decide
      rcases List.mem_pair.mp hmem with rfl | rfl
      · decide
      · simp [MetricsTarget.argument, hlabel, hpid, hequals]
    · simp only [List.mem_cons, List.not_mem_nil, or_false] at htimes
      rcases htimes with rfl | rfl | rfl | rfl
      · decide
      · exact hdecimal _ (by omega)
      · decide
      · exact hdecimal _ (by omega)
  · obtain ⟨path, hsummary, hmem⟩ := List.mem_flatMap.mp hpath
    rw [Option.mem_toList] at hsummary
    rcases List.mem_pair.mp hmem with rfl | rfl
    · decide
    · exact (h.partly.summary argument hsummary).2

/-- The options that some command line of C strings gives are the well-formed ones: what
is accepted has one to sixteen fresh targets with distinct safe labels and positive
process numbers, times within their bounds and no empty path; and each such set has a
command line that gives it back. -/
theorem parseOptions_wellFormed (getpid : Int) (hpid : 1 ≤ getpid ∧ getpid ≤ 2147483647) :
    (∀ arguments options, (∀ argument ∈ arguments, nul ∉ argument) →
      parseOptions getpid arguments = .accepted options → options.WellFormed) ∧
    ∀ options : MetricsOptions, options.WellFormed →
      (∀ argument ∈ options.arguments, nul ∉ argument) ∧
        parseOptions getpid options.arguments = .accepted options :=
  ⟨fun arguments _ hplain haccepted =>
      parseArguments_wellFormed hpid arguments partly_default hplain haccepted,
    fun _ h => ⟨nul_notMem_arguments h, parseOptions_arguments h⟩⟩

/-- The tool samples itself four times a second. -/
theorem parseOptions_wellFormed_self :
    MetricsOptions.WellFormed ⟨[MetricsTarget.added (ascii "tool") 4711], 5, 250, none⟩ :=
  (parseOptions_wellFormed 4711 (by decide)).1
    [ascii "--target", ascii "tool=self", ascii "--interval-ms", ascii "250"] _ (by decide +kernel)
    (by decide +kernel)

end LearnApue.Gateway.MetricsTool
