import LearnApue.Foundation.Table
import LearnApue.Gateway.MetricsCollect

set_option autoImplicit false

/-!
# Gateway: the tables of `gateway-metrics` (`gateway_metrics.c`)

The samples and the summary are tables of fields between commas.  Labels have no comma, so
the rows of a run's passes are read back from the samples (`sampleTable_read`).  The summary
has the figures of each target over the whole run, and the row of a target that was never
available has a field more than the header names (`summaryTable_columns`).
-/

namespace LearnApue.Gateway.MetricsTool

open LearnApue.Foundation LearnApue.Foundation.Table

/-! ## The transcription -/

/-- What `printf` prints of a sample. -/
def sampleText : SampleLine → Bytes
  | .unavailable elapsedMs label pid =>
      decimalInt elapsedMs ++ ascii "," ++ label ++ ascii "," ++ decimalInt pid ++
        ascii ",unavailable,,,\n"
  | .ok elapsedMs label pid (some cpuPercent) rssKib fdCount =>
      decimalInt elapsedMs ++ ascii "," ++ label ++ ascii "," ++ decimalInt pid ++ ascii ",ok," ++
        decimalHundredths cpuPercent ++ ascii "," ++ decimalInt rssKib ++ ascii "," ++
        decimalNat fdCount ++ ascii "\n"
  | .ok elapsedMs label pid none rssKib fdCount =>
      decimalInt elapsedMs ++ ascii "," ++ label ++ ascii "," ++ decimalInt pid ++ ascii ",ok,," ++
        decimalInt rssKib ++ ascii "," ++ decimalNat fdCount ++ ascii "\n"

/-- The standard output behind the rows. -/
def sampleOutput (rows : List SampleLine) : Bytes :=
  ascii "elapsed_ms,target,pid,status,cpu_percent,rss_kib,fd_count\n" ++ rows.flatMap sampleText

/-- The CPU columns of `write_summaries`. -/
def cpuText : Option (ℚ × ℚ) → Bytes
  | some (average, peak) =>
      decimalHundredths average ++ ascii "," ++ decimalHundredths peak ++ ascii ","
  | none => ascii ",,"

/-- The resource columns of `write_summaries`. -/
def resourcesText : Option (ℚ × Int × Nat × Nat) → Bytes
  | some (average, peak, fdMin, fdMax) =>
      decimalHundredths average ++ ascii "," ++ decimalInt peak ++ ascii "," ++
        decimalNat fdMin ++ ascii "," ++ decimalNat fdMax ++ ascii "\n"
  | none => ascii ",,,,\n"

/-- What `fprintf` prints of a target. -/
def summaryText (line : SummaryLine) : Bytes :=
  line.label ++ ascii "," ++ decimalInt line.pid ++ ascii "," ++
    decimalNat line.availableSamples ++ ascii "," ++ decimalNat line.unavailableSamples ++
    ascii "," ++ decimalNat line.cpuSamples ++ ascii "," ++ cpuText line.cpu ++
    resourcesText line.resources

/-- The summary. -/
def summaryOutput (lines : List SummaryLine) : Bytes :=
  ascii "target,pid,available_samples,unavailable_samples,cpu_samples," ++
    ascii "cpu_avg_percent,cpu_peak_percent,rss_avg_kib,rss_peak_kib,fd_min,fd_max\n" ++
    lines.flatMap summaryText

/-! ## The fields -/

/-- The names of the columns of the samples. -/
def sampleColumns : List Bytes :=
  ["elapsed_ms", "target", "pid", "status", "cpu_percent", "rss_kib", "fd_count"].map ascii

/-- The fields of a sample. -/
def sampleFields : SampleLine → List Bytes
  | .unavailable elapsedMs label pid =>
      [decimalInt elapsedMs, label, decimalInt pid, ascii "unavailable", [], [], []]
  | .ok elapsedMs label pid cpuPercent rssKib fdCount =>
      [decimalInt elapsedMs, label, decimalInt pid, ascii "ok",
        (cpuPercent.map decimalHundredths).getD [], decimalInt rssKib, decimalNat fdCount]

/-- The names of the columns of the summary. -/
def summaryColumns : List Bytes :=
  ["target", "pid", "available_samples", "unavailable_samples", "cpu_samples",
    "cpu_avg_percent", "cpu_peak_percent", "rss_avg_kib", "rss_peak_kib", "fd_min", "fd_max"].map
    ascii

/-- The CPU fields of a target. -/
def cpuColumns : Option (ℚ × ℚ) → List Bytes
  | some (average, peak) => [decimalHundredths average, decimalHundredths peak]
  | none => [[], []]

/-- The resource fields of a target; there are five empty ones. -/
def resourceColumns : Option (ℚ × Int × Nat × Nat) → List Bytes
  | some (average, peak, fdMin, fdMax) =>
      [decimalHundredths average, decimalInt peak, decimalNat fdMin, decimalNat fdMax]
  | none => [[], [], [], [], []]

/-- The fields of a target in the summary. -/
def summaryFields (line : SummaryLine) : List Bytes :=
  [line.label, decimalInt line.pid, decimalNat line.availableSamples,
    decimalNat line.unavailableSamples, decimalNat line.cpuSamples] ++
    cpuColumns line.cpu ++ resourceColumns line.resources

theorem ascii_comma : ascii "," = [byte ','] := by decide

theorem sampleText_eq (row : SampleLine) :
    sampleText row = rowText (byte ',') newline (sampleFields row) := by
  have hend : ascii "\n" = [newline] := by decide
  cases row with
  | unavailable elapsedMs label pid =>
    have hstatus : ascii ",unavailable,,,\n" =
        [byte ','] ++ ascii "unavailable" ++ [byte ',', byte ',', byte ',', newline] := by decide
    simp only [sampleText, sampleFields, rowText, List.intercalate_cons_cons,
      List.intercalate_singleton, ascii_comma, hstatus, List.append_assoc, List.cons_append,
      List.nil_append]
  | ok elapsedMs label pid cpuPercent rssKib fdCount =>
    cases cpuPercent with
    | none =>
      have hstatus : ascii ",ok,," = [byte ','] ++ ascii "ok" ++ [byte ',', byte ','] := by decide
      simp only [sampleText, sampleFields, rowText, List.intercalate_cons_cons,
        List.intercalate_singleton, ascii_comma, hstatus, hend, List.append_assoc,
        List.cons_append, List.nil_append, Option.map_none, Option.getD_none]
    | some percent =>
      have hstatus : ascii ",ok," = [byte ','] ++ ascii "ok" ++ [byte ','] := by decide
      simp only [sampleText, sampleFields, rowText, List.intercalate_cons_cons,
        List.intercalate_singleton, ascii_comma, hstatus, hend, List.append_assoc,
        List.cons_append, List.nil_append, Option.map_some, Option.getD_some]

theorem summaryText_eq (line : SummaryLine) :
    summaryText line = rowText (byte ',') newline (summaryFields line) := by
  obtain ⟨label, pid, availableSamples, unavailableSamples, cpuSamples, cpu, resources⟩ := line
  have hend : ascii "\n" = [newline] := by decide
  have hcpu : ascii ",," = [byte ',', byte ','] := by decide
  have hresources : ascii ",,,,\n" = [byte ',', byte ',', byte ',', byte ',', newline] := by decide
  cases cpu <;> cases resources <;>
    simp only [summaryText, summaryFields, cpuText, cpuColumns, resourcesText, resourceColumns,
      rowText, ascii_comma, hcpu, hresources, hend, List.intercalate_cons_cons,
      List.intercalate_singleton, List.append_assoc, List.cons_append, List.nil_append]

/-- No field has a byte that no label has. -/
def Printable (field : Bytes) : Prop := ∀ b ∈ field, isLabelByte b = true

instance (field : Bytes) : Decidable (Printable field) :=
  inferInstanceAs (Decidable (∀ b ∈ field, _))

theorem printable_digits {digits : Bytes} (h : IsNumeral digits) : Printable digits := by
  intro b hb
  rw [isLabelByte, isAlnum, h.2 b hb]
  rfl

theorem printable_cons {b : Byte} {field : Bytes} (hb : isLabelByte b = true)
    (h : Printable field) : Printable (b :: field) := by
  intro other hother
  rcases List.mem_cons.mp hother with rfl | hmem
  · exact hb
  · exact h other hmem

theorem printable_append {first second : Bytes} (hfirst : Printable first)
    (hsecond : Printable second) : Printable (first ++ second) := by
  intro b hb
  exact (List.mem_append.mp hb).elim (hfirst b) (hsecond b)

theorem printable_nil : Printable [] := List.forall_mem_nil _

theorem printable_decimalNat (n : Nat) : Printable (decimalNat n) :=
  printable_digits (isNumeral_decimalNat n)

theorem printable_decimalInt (value : Int) : Printable (decimalInt value) := by
  unfold decimalInt
  split
  · exact printable_cons (by decide) (printable_decimalNat _)
  · exact printable_decimalNat _

theorem printable_decimalHundredths (value : ℚ) : Printable (decimalHundredths value) := by
  have htext : Printable (hundredthsText (hundredths value).natAbs) :=
    printable_append (printable_decimalNat _)
      (printable_cons (by decide) (printable_digits (isNumeral_twoDigits _)))
  unfold decimalHundredths
  split
  · exact printable_cons (by decide) htext
  · exact htext

theorem plain_of_printable {fields : List Bytes} (hsome : fields ≠ [])
    (h : ∀ field ∈ fields, Printable field) : Plain (byte ',') newline fields where
  some := hsome
  separators := fun field hfield hmem => absurd (h field hfield _ hmem) (by decide)
  newlines := fun field hfield hmem => absurd (h field hfield _ hmem) (by decide)

/-- The label of a row. -/
def SampleLine.label : SampleLine → Bytes
  | .unavailable _ label _ => label
  | .ok _ label _ _ _ _ => label

theorem sampleFields_plain {row : SampleLine} (h : labelIsSafe row.label = true) :
    Plain (byte ',') newline (sampleFields row) := by
  have hlabel : Printable row.label := (labelIsSafe_iff.mp h).2.2
  have hunavailable : Printable (ascii "unavailable") := by decide +kernel
  have hok : Printable (ascii "ok") := by decide +kernel
  cases row with
  | unavailable elapsedMs label pid =>
    refine plain_of_printable (List.cons_ne_nil _ _) ?_
    simp only [sampleFields, List.forall_mem_cons]
    exact ⟨printable_decimalInt _, hlabel, printable_decimalInt _, hunavailable, printable_nil,
      printable_nil, printable_nil, List.forall_mem_nil _⟩
  | ok elapsedMs label pid cpuPercent rssKib fdCount =>
    have hcpu : Printable ((cpuPercent.map decimalHundredths).getD []) := by
      cases cpuPercent with
      | none => exact printable_nil
      | some percent => exact printable_decimalHundredths percent
    refine plain_of_printable (List.cons_ne_nil _ _) ?_
    simp only [sampleFields, List.forall_mem_cons]
    exact ⟨printable_decimalInt _, hlabel, printable_decimalInt _, hok, hcpu,
      printable_decimalInt _, printable_decimalNat _, List.forall_mem_nil _⟩

theorem summaryFields_plain {line : SummaryLine} (h : labelIsSafe line.label = true) :
    Plain (byte ',') newline (summaryFields line) := by
  have hlabel : Printable line.label := (labelIsSafe_iff.mp h).2.2
  have hcpu : ∀ field ∈ cpuColumns line.cpu, Printable field := by
    cases line.cpu with
    | none => simp [cpuColumns, printable_nil]
    | some cpu => simp [cpuColumns, printable_decimalHundredths]
  have hresources : ∀ field ∈ resourceColumns line.resources, Printable field := by
    cases line.resources with
    | none => simp [resourceColumns, printable_nil]
    | some resources =>
      simp [resourceColumns, printable_decimalHundredths, printable_decimalInt,
        printable_decimalNat]
  refine plain_of_printable (by simp [summaryFields]) ?_
  rw [summaryFields, List.forall_mem_append, List.forall_mem_append]
  refine ⟨⟨?_, hcpu⟩, hresources⟩
  simp only [List.forall_mem_cons]
  exact ⟨hlabel, printable_decimalInt _, printable_decimalNat _, printable_decimalNat _,
    printable_decimalNat _, List.forall_mem_nil _⟩

/-! ## What a reader makes of the samples -/

/-- A sample from its fields. -/
def readSample : List Bytes → Option SampleLine
  | [elapsed, label, pid, status, cpu, rss, fd] => do
      let elapsedMs ← readInteger elapsed
      let pid ← readInteger pid
      if status = ascii "unavailable" ∧ cpu = [] ∧ rss = [] ∧ fd = [] then
        return .unavailable elapsedMs label pid
      else if status = ascii "ok" then
        let cpuPercent ←
          if cpu = [] then some none
          else (readHundredths cpu).map fun value => some ((value : ℚ) / 100)
        let rssKib ← readInteger rss
        let fdCount ← readInteger fd
        return .ok elapsedMs label pid cpuPercent rssKib fdCount.toNat
      else none
  | _ => none

/-- The samples of an output. -/
def readSamples (output : Bytes) : Option (List SampleLine) :=
  match rows (byte ',') newline output with
  | columns :: table => if columns = sampleColumns then table.mapM readSample else none
  | [] => none

/-- A sample with its percentage in whole hundredths. -/
def SampleLine.rounded : SampleLine → SampleLine
  | .unavailable elapsedMs label pid => .unavailable elapsedMs label pid
  | .ok elapsedMs label pid cpuPercent rssKib fdCount =>
      .ok elapsedMs label pid (cpuPercent.map fun percent => (hundredths percent : ℚ) / 100)
        rssKib fdCount

theorem decimalHundredths_ne_nil (value : ℚ) : decimalHundredths value ≠ [] := by
  simp [decimalHundredths, hundredthsText]

theorem readSample_fields (row : SampleLine) : readSample (sampleFields row) = some row.rounded := by
  cases row with
  | unavailable elapsedMs label pid =>
    simp only [sampleFields, readSample, readInteger_decimalInt, Option.bind_eq_bind,
      Option.bind_some, and_self, if_true]
    rfl
  | ok elapsedMs label pid cpuPercent rssKib fdCount =>
    have hstatus : ascii "ok" ≠ ascii "unavailable" := by decide
    cases cpuPercent with
    | none =>
      simp only [sampleFields, readSample, readInteger_decimalInt, readInteger_decimalNat, hstatus,
        Option.bind_eq_bind, Option.bind_some, false_and, if_false, if_true, Option.map_none,
        Option.getD_none, Int.toNat_natCast]
      rfl
    | some percent =>
      simp only [sampleFields, readSample, readInteger_decimalInt, readInteger_decimalNat, hstatus,
        readHundredths_decimalHundredths, decimalHundredths_ne_nil, Option.bind_eq_bind,
        Option.bind_some, false_and, if_false, if_true, Option.map_some, Option.getD_some,
        Int.toNat_natCast]
      rfl

/-- An output of rows with safe labels is read back. -/
theorem readSamples_output {samples : List SampleLine}
    (h : ∀ row ∈ samples, labelIsSafe row.label = true) :
    readSamples (sampleOutput samples) = some (samples.map SampleLine.rounded) := by
  have hcolumns : ascii "elapsed_ms,target,pid,status,cpu_percent,rss_kib,fd_count\n" =
      rowText (byte ',') newline sampleColumns := by decide +kernel
  have houtput : sampleOutput samples =
      tableText (byte ',') newline (sampleColumns :: samples.map sampleFields) := by
    rw [sampleOutput, hcolumns, tableText, List.flatMap_cons, List.flatMap_map]
    congr 1
    exact List.flatMap_congr fun row _ => sampleText_eq row
  have hplain : ∀ fields ∈ sampleColumns :: samples.map sampleFields,
      Plain (byte ',') newline fields := by
    intro fields hfields
    rcases List.mem_cons.mp hfields with rfl | hrow
    · exact plain_of_printable (by simp [sampleColumns]) (by decide +kernel)
    · obtain ⟨row, hmem, rfl⟩ := List.mem_map.mp hrow
      exact sampleFields_plain (h row hmem)
  have hread : (samples.map sampleFields).mapM readSample =
      some (samples.map SampleLine.rounded) := by
    clear h houtput hplain
    induction samples with
    | nil => rfl
    | cons row rest ih =>
      rw [List.map_cons, List.mapM_cons, readSample_fields, ih]
      rfl
  rw [readSamples, houtput, rows_table (by decide) hplain]
  dsimp only
  rw [if_pos rfl, hread]

/-! ## Every run -/

/-- What a run prints on the standard output. -/
def Collected.output : Collected → Bytes
  | .notStarted => []
  | .failed rows => sampleOutput rows
  | .undefined => []
  | .ended state => sampleOutput state.rows

variable {options : MetricsOptions} {ticksPerSecond : Int} {start : Timespec}

theorem label_passRows {names : List (Bytes × Int)} {earlier : Option Pass} {pass : Pass}
    {row : SampleLine} (h : row ∈ passRows ticksPerSecond names earlier pass) :
    ∃ name ∈ names, row.label = name.1 := by
  obtain ⟨index, hindex, rfl⟩ := List.mem_mapIdx.mp h
  refine ⟨names[index], List.getElem_mem hindex, ?_⟩
  unfold rowOf
  split <;> rfl

theorem label_rowsOf {names : List (Bytes × Int)} {passes : List Pass} {earlier : Option Pass}
    {row : SampleLine} (h : row ∈ rowsOf ticksPerSecond names earlier passes) :
    ∃ name ∈ names, row.label = name.1 := by
  induction passes generalizing earlier with
  | nil => cases h
  | cons pass rest ih =>
    rw [rowsOf, List.mem_append] at h
    exact h.elim label_passRows ih

theorem label_safe (hoptions : options.WellFormed) {name : Bytes × Int}
    (h : name ∈ options.names) : labelIsSafe name.1 = true := by
  obtain ⟨target, htarget, rfl⟩ := List.mem_map.mp h
  exact (hoptions.partly.targets target htarget).safe

/-- The rows of some passes are read back. -/
theorem readSamples_rowsOf (hoptions : options.WellFormed) (passes : List Pass) :
    readSamples (sampleOutput (rowsOf ticksPerSecond options.names none passes)) =
      some ((rowsOf ticksPerSecond options.names none passes).map SampleLine.rounded) := by
  refine readSamples_output fun row hrow => ?_
  obtain ⟨name, hname, hlabel⟩ := label_rowsOf hrow
  exact hlabel ▸ label_safe hoptions hname

/-- The lines of the targets over some passes. -/
def summaryLinesOf (ticksPerSecond : Int) (names : List (Bytes × Int)) (passes : List Pass) :
    List SummaryLine :=
  names.mapIdx fun index name =>
    summaryOf .binary64 ticksPerSecond name.1 name.2 (callsOf passes index)

theorem writeSummaries_of_figures {calls : Nat → List SampleCall} {targets : List MetricsTarget}
    (h : ∀ index target, targets[index]? = some target →
      Summarises .binary64 ticksPerSecond (calls index) target) :
    writeSummaries .binary64 targets = some ((targets.map MetricsTarget.name).mapIdx
      fun index name => summaryOf .binary64 ticksPerSecond name.1 name.2 (calls index)) := by
  induction targets generalizing calls with
  | nil => rfl
  | cons target rest ih =>
    have hrest := ih fun index other hother => h (index + 1) other hother
    rw [writeSummaries] at hrest ⊢
    rw [List.mapM_cons, (h 0 target rfl).line, hrest, List.map_cons, List.mapIdx_cons]
    rfl

theorem readings_callsOf (passes : List Pass) (index : Nat) :
    readings (callsOf passes index) = passes.filterMap fun pass => pass.reading index := by
  rw [readings, callsOf, List.filterMap_map]
  rfl

/-- A row has a field too many when its target was never available. -/
theorem summaryFields_length (label : Bytes) (pid : Int) (calls : List SampleCall) :
    (readings calls ≠ [] →
      (summaryFields (summaryOf .binary64 ticksPerSecond label pid calls)).length =
        summaryColumns.length) ∧
    (readings calls = [] →
      (summaryFields (summaryOf .binary64 ticksPerSecond label pid calls)).length =
        summaryColumns.length + 1) := by
  have hcpu : ∀ cpu, (cpuColumns cpu).length = 2 := by
    intro cpu
    cases cpu <;> rfl
  simp only [summaryFields, summaryOf, List.length_append, hcpu]
  constructor
  · intro hsome
    obtain ⟨resources, hresources⟩ :=
      Option.isSome_iff_exists.mp (resourcesOf_isSome.mpr hsome)
    rw [hresources]
    rfl
  · intro hnone
    rw [hnone]
    rfl

/-- The summary behind a run is a table with one row for each target, in their order, of the
figures of the target over all passes.  A row has the columns of the header when its target
was available in some pass: the row of another one has a column too many. -/
theorem summaryTable_columns (options : MetricsOptions) (hoptions : options.WellFormed)
    (ticksPerSecond : Int) (hrate : 0 < ticksPerSecond) (start : Timespec)
    (answers : List PassAnswer) (state : Collecting)
    (hended : collectMetrics options ticksPerSecond (some start) answers =
      .leave (.ended state)) :
    ∃ front answer, StopsAt options start answers front answer ∧ answer.Reaches options start ∧
      ∃ lines, lines = summaryLinesOf ticksPerSecond options.names
          (passesOf start 0 (front ++ [answer])) ∧
        writeSummaries .binary64 state.targets = some lines ∧
        rows (byte ',') newline (summaryOutput lines) =
          summaryColumns :: lines.map summaryFields ∧
        ∀ index line, lines[index]? = some line →
          ((∃ pass ∈ passesOf start 0 (front ++ [answer]), pass.reading index ≠ none) →
            (summaryFields line).length = summaryColumns.length) ∧
          ((∀ pass ∈ passesOf start 0 (front ++ [answer]), pass.reading index = none) →
            (summaryFields line).length = summaryColumns.length + 1) := by
  have hstopped := collectMetrics_stops hoptions hrate start answers
  rw [hended] at hstopped
  obtain ⟨front, answer, hstops, hreaches, hsampled, -⟩ := hstopped
  refine ⟨front, answer, hstops, hreaches, _, rfl, ?_, ?_, ?_⟩
  · have hlines := writeSummaries_of_figures fun index target htarget =>
      (hsampled.targets.figures index target htarget).1
    rw [hsampled.targets.same] at hlines
    exact hlines
  · have hheader : ascii "target,pid,available_samples,unavailable_samples,cpu_samples," ++
        ascii "cpu_avg_percent,cpu_peak_percent,rss_avg_kib,rss_peak_kib,fd_min,fd_max\n" =
          rowText (byte ',') newline summaryColumns := by decide +kernel
    generalize hlines : summaryLinesOf ticksPerSecond options.names
      (passesOf start 0 (front ++ [answer])) = lines
    have houtput : summaryOutput lines =
        tableText (byte ',') newline (summaryColumns :: lines.map summaryFields) := by
      rw [summaryOutput, hheader, tableText, List.flatMap_cons, List.flatMap_map]
      congr 1
      exact List.flatMap_congr fun line _ => summaryText_eq line
    rw [houtput]
    refine rows_table (by decide) ?_
    intro fields hfields
    rcases List.mem_cons.mp hfields with rfl | hline
    · exact plain_of_printable (by simp [summaryColumns]) (by decide +kernel)
    · obtain ⟨line, hmem, rfl⟩ := List.mem_map.mp hline
      rw [← hlines] at hmem
      obtain ⟨index, hindex, rfl⟩ := List.mem_mapIdx.mp hmem
      exact summaryFields_plain (label_safe hoptions (List.getElem_mem hindex))
  · intro index line hline
    rw [summaryLinesOf, List.getElem?_mapIdx] at hline
    obtain ⟨name, -, rfl⟩ := Option.map_eq_some_iff.mp hline
    obtain ⟨hsome, hnone⟩ := @summaryFields_length ticksPerSecond name.1 name.2
      (callsOf (passesOf start 0 (front ++ [answer])) index)
    rw [readings_callsOf] at hsome hnone
    constructor
    · rintro ⟨pass, hpass, havailable⟩
      refine hsome fun hempty => havailable ?_
      exact List.filterMap_eq_nil_iff.mp hempty pass hpass
    · exact fun hall => hnone (List.filterMap_eq_nil_iff.mpr hall)

/-- The target was gone before the only pass. -/
def goneAnswers : List PassAnswer := [⟨clockAt 102 500000, fun _ => none, true, true⟩]

theorem summaryTable_columns_gone :
    ∃ start state lines, clockAt 100 999000000 = some start ∧
      collectMetrics toolOptions 100 (some start) goneAnswers = .leave (.ended state) ∧
      writeSummaries .binary64 state.targets = some lines ∧
      rows (byte ',') newline (summaryOutput lines) =
        summaryColumns :: lines.map summaryFields := by
  let start : Timespec := ⟨100, 999000000, by decide, by decide, by decide, by decide⟩
  have hended : ∃ state, collectMetrics toolOptions 100 (some start) goneAnswers =
      .leave (.ended state) := ⟨_, rfl⟩
  obtain ⟨state, hstate⟩ := hended
  obtain ⟨front, answer, -, -, lines, -, hlines, htable, -⟩ :=
    summaryTable_columns toolOptions toolOptions_wellFormed 100 (by decide) start goneAnswers state
      hstate
  exact ⟨start, state, lines, by decide, hstate, hlines, htable⟩

end LearnApue.Gateway.MetricsTool
