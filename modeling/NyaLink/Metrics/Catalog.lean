import NyaLink.Library.Exposition

/-!
# The text of the metrics

`render_prometheus` walks the snapshot and pushes the text of every metric.  The
names, helps and label keys are static strings of the catalog; the label values
are path and link names, and a path is named by the peer.  `prometheus_label`
escapes a backslash and a quote, and leaves a line feed as it is.
-/

namespace NyaLink.Catalog

open Exposition

/-! ## What is walked -/

/-- The static name and help of a metric. -/
structure Metric where
  name : Text
  help : Text
  plain : ∀ c ∈ name, isNameChar c = true
  oneLine : '\n' ∉ help

/-- A static label key. -/
structure LabelKey where
  text : Text
  plain : ∀ c ∈ text, isNameChar c = true

inductive InstrumentKind where
  | counter
  | gauge
  | histogram

def InstrumentKind.word : InstrumentKind → Text
  | .counter => "counter".toList
  | .gauge => "gauge".toList
  | .histogram => "histogram".toList

/-- Raw (non-cumulative) counts. -/
structure HistSnap where
  buckets : List Nat
  sum : Nat
  count : Nat

/-- A call of the sink. -/
inductive MetricCall where
  | counter (metric : Metric) (value : Nat)
  | counterLabeled (metric : Metric) (labels : List (LabelKey × Text)) (value : Nat)
  | gauge (metric : Metric) (labels : List (LabelKey × Text)) (value : Nat)
  | histogram (metric : Metric) (bounds : List Nat) (snap : HistSnap)

/-! ## What is pushed -/

/-- `str::replace` of one character. -/
def replace (pattern : Char) (replacement s : Text) : Text :=
  s.flatMap fun c => if c = pattern then replacement else [c]

def prometheusLabel (s : Text) : Text :=
  replace '"' ['\\', '"'] (replace '\\' ['\\', '\\'] s)

/-- `value.to_string()`. -/
def decimal (value : Nat) : Text := Nat.toDigits 10 value

def contains (needle : Text) : Text → Bool
  | [] => needle.isEmpty
  | c :: rest => needle.isPrefixOf (c :: rest) || contains needle rest

def helpWord : Text := "# HELP ".toList

def typeWord : Text := "# TYPE ".toList

def typeLine (name : Text) : Text := typeWord ++ name ++ [' ']

def writeHelpType (o : Text) (metric : Metric) (ty : InstrumentKind) : Text :=
  o ++ helpWord ++ metric.name ++ [' '] ++ metric.help ++ ['\n'] ++
    typeLine metric.name ++ ty.word ++ ['\n']

def pushLabels (labels : List (LabelKey × Text)) : Text :=
  if labels.isEmpty then []
  else
    ['{'] ++ (labels.zipIdx.flatMap fun (label, i) =>
      (if 0 < i then [','] else []) ++ label.1.text ++ ['=', '"'] ++
        prometheusLabel label.2 ++ ['"']) ++ ['}']

def sampleText (name : Text) (labels : List (LabelKey × Text)) (value : Nat) : Text :=
  name ++ pushLabels labels ++ [' '] ++ decimal value ++ ['\n']

def counter (o : Text) (metric : Metric) (value : Nat) : Text :=
  writeHelpType o metric .counter ++ metric.name ++ [' '] ++ decimal value ++ ['\n']

def labeled (ty : InstrumentKind) (o : Text) (metric : Metric) (labels : List (LabelKey × Text))
    (value : Nat) : Text :=
  let o := if contains (typeLine metric.name) o then o else writeHelpType o metric ty
  o ++ sampleText metric.name labels value

def counterLabeled (o : Text) (metric : Metric) (labels : List (LabelKey × Text)) (value : Nat) :
    Text :=
  labeled .counter o metric labels value

def gauge (o : Text) (metric : Metric) (labels : List (LabelKey × Text)) (value : Nat) : Text :=
  labeled .gauge o metric labels value

def bucketWord : Text := "_bucket".toList

def leKey : Text := "le".toList

def pushBucket (o name le : Text) (cum : Nat) : Text :=
  o ++ name ++ bucketWord ++ ['{'] ++ leKey ++ ['=', '"'] ++ le ++ ['"', '}', ' '] ++ decimal cum ++
    ['\n']

def infinity : Text := "+Inf".toList

/-- The loop over the bounds; `buckets` are those not yet counted. -/
def pushBuckets (name : Text) : Text → List Nat → List Nat → Nat → Text
  | o, [], buckets, cum => pushBucket o name infinity (cum + buckets.headD 0)
  | o, le :: bounds, buckets, cum =>
      let cum := cum + buckets.headD 0
      pushBuckets name (pushBucket o name (decimal le) cum) bounds buckets.tail cum

def sumWord : Text := "_sum".toList

def countWord : Text := "_count".toList

def histogram (o : Text) (metric : Metric) (bounds : List Nat) (snap : HistSnap) : Text :=
  pushBuckets metric.name (writeHelpType o metric .histogram) bounds snap.buckets 0 ++
    metric.name ++ sumWord ++ [' '] ++ decimal snap.sum ++ ['\n'] ++
    metric.name ++ countWord ++ [' '] ++ decimal snap.count ++ ['\n']

def push (o : Text) : MetricCall → Text
  | .counter metric value => counter o metric value
  | .counterLabeled metric labels value => counterLabeled o metric labels value
  | .gauge metric labels value => gauge o metric labels value
  | .histogram metric bounds snap => histogram o metric bounds snap

/-- `calls` is what `visit_metrics` asks of the sink. -/
def renderPrometheus (calls : List MetricCall) : Text := calls.foldl push []

/-! ## What is meant -/

def seen (labels : List (LabelKey × Text)) : List (Text × Text) :=
  labels.map fun label => (label.1.text, label.2)

def bucketSamples (name : Text) : List Nat → List Nat → Nat → List Sample
  | [], buckets, cum =>
      [⟨name ++ bucketWord, [(leKey, infinity)], decimal (cum + buckets.headD 0)⟩]
  | le :: bounds, buckets, cum =>
      let cum := cum + buckets.headD 0
      ⟨name ++ bucketWord, [(leKey, decimal le)], decimal cum⟩ ::
        bucketSamples name bounds buckets.tail cum

namespace MetricCall

def samples : MetricCall → List Sample
  | .counter metric value => [⟨metric.name, [], decimal value⟩]
  | .counterLabeled metric labels value => [⟨metric.name, seen labels, decimal value⟩]
  | .gauge metric labels value => [⟨metric.name, seen labels, decimal value⟩]
  | .histogram metric bounds snap =>
      bucketSamples metric.name bounds snap.buckets 0 ++
        [⟨metric.name ++ sumWord, [], decimal snap.sum⟩,
          ⟨metric.name ++ countWord, [], decimal snap.count⟩]

def labels : MetricCall → List (LabelKey × Text)
  | .counterLabeled _ labels _ => labels
  | .gauge _ labels _ => labels
  | _ => []

def labeled? : MetricCall → Option (Metric × List (LabelKey × Text) × Nat)
  | .counterLabeled metric labels value => some (metric, labels, value)
  | .gauge metric labels value => some (metric, labels, value)
  | _ => none

end MetricCall

/-- One labelled sample: a line of its own from which its labels are had back, and which no other
labels give. -/
structure WellFormed (metric : Metric) (labels : List (LabelKey × Text)) (value : Nat) : Prop where
  oneLine : ∃ line, sampleText metric.name labels value = line ++ ['\n'] ∧ '\n' ∉ line ∧
    readSample line = some ⟨metric.name, seen labels, decimal value⟩
  unescapes : ∀ label ∈ labels, unescape (prometheusLabel label.2) = some label.2
  distinct : ∀ others otherValue,
    sampleText metric.name others otherValue = sampleText metric.name labels value →
    seen others = seen labels

/-- Every labelled sample is well formed, and a reader of the whole text finds the samples that
were meant, in their order, and nothing else. -/
structure Faithful (calls : List MetricCall) : Prop where
  wellFormed : ∀ call ∈ calls, ∀ metric labels value,
    call.labeled? = some (metric, labels, value) → WellFormed metric labels value
  read : Exposition.read (renderPrometheus calls) = (calls.flatMap MetricCall.samples).map some

/-! ## Label values -/

theorem prometheusLabel_cons (c : Char) (s : Text) :
    prometheusLabel (c :: s) = prometheusLabel [c] ++ prometheusLabel s := by
  simp [prometheusLabel, replace]

theorem prometheusLabel_plain {c : Char} (plain : c ≠ '\\') (notQuote : c ≠ '"') :
    prometheusLabel [c] = [c] := by
  simp [prometheusLabel, replace, plain, notQuote]

/-- A character other than a line feed is written as the format has it, and a line feed as it
is. -/
theorem prometheusLabel_cases (c : Char) :
    c ≠ '\n' ∧ prometheusLabel [c] = escapeChar c ∨ c = '\n' ∧ prometheusLabel [c] = [c] := by
  by_cases backslash : c = '\\'
  · subst backslash
    exact .inl ⟨by decide, rfl⟩
  by_cases quote : c = '"'
  · subst quote
    exact .inl ⟨by decide, rfl⟩
  by_cases lineFeed : c = '\n'
  · exact .inr ⟨lineFeed, prometheusLabel_plain backslash quote⟩
  · refine .inl ⟨lineFeed, ?_⟩
    rw [prometheusLabel_plain backslash quote, escapeChar_plain backslash quote lineFeed]

theorem prometheusLabel_eq_escape {s : Text} (oneLine : '\n' ∉ s) :
    prometheusLabel s = escape s := by
  induction s with
  | nil => rfl
  | cons c s inductionHypothesis =>
      have later : '\n' ∉ s := fun found => oneLine (List.mem_cons_of_mem c found)
      rw [prometheusLabel_cons, escape_cons, inductionHypothesis later]
      rcases prometheusLabel_cases c with ⟨_, written⟩ | ⟨rfl, _⟩
      · rw [written]
      · exact absurd List.mem_cons_self oneLine

/-- Every name is had back from its label, also one with a line feed in it. -/
theorem unescape_prometheusLabel (s : Text) : unescape (prometheusLabel s) = some s := by
  induction s with
  | nil => rfl
  | cons c s inductionHypothesis =>
      rw [prometheusLabel_cons]
      rcases prometheusLabel_cases c with ⟨_, written⟩ | ⟨rfl, written⟩
      · rw [written, unescape_escapeChar, inductionHypothesis]
        rfl
      · rw [written, List.singleton_append, unescape_cons (by decide), inductionHypothesis]
        rfl

theorem lineFeed_mem_prometheusLabel {s : Text} (found : '\n' ∈ s) : '\n' ∈ prometheusLabel s := by
  induction s with
  | nil => cases found
  | cons c s inductionHypothesis =>
      rw [prometheusLabel_cons, List.mem_append]
      rcases List.mem_cons.mp found with rfl | later
      · exact .inl (List.mem_singleton.mpr rfl)
      · exact .inr (inductionHypothesis later)

theorem isDigit_of_mem_decimal {value : Nat} {c : Char} (found : c ∈ decimal value) :
    c.isDigit = true :=
  Nat.isDigit_of_mem_toDigits (by decide) (by decide) found

theorem notMem_decimal {c : Char} (notDigit : c.isDigit = false) (value : Nat) :
    c ∉ decimal value := by
  intro found
  rw [isDigit_of_mem_decimal found] at notDigit
  cases notDigit

/-! ## One labelled sample -/

def InLine (labels : List (LabelKey × Text)) : Prop := ∀ label ∈ labels, '\n' ∉ label.2

theorem pushed_eq_labelList {labels : List (LabelKey × Text)} (inLine : InLine labels)
    (some_label : labels ≠ []) (n : Nat) :
    ((labels.zipIdx n).flatMap fun (label, i) =>
      (if 0 < i then [','] else []) ++ label.1.text ++ ['=', '"'] ++
        prometheusLabel label.2 ++ ['"']) =
      (if 0 < n then [','] else []) ++ labelList (seen labels) := by
  induction labels generalizing n with
  | nil => exact absurd rfl some_label
  | cons label labels inductionHypothesis =>
      have escaped := prometheusLabel_eq_escape (inLine label List.mem_cons_self)
      have rest : InLine labels := fun other later =>
        inLine other (List.mem_cons_of_mem label later)
      rw [List.zipIdx_cons, List.flatMap_cons]
      cases labels with
      | nil => simp [seen, labelList, Exposition.label, escaped]
      | cons other more =>
          rw [inductionHypothesis rest (List.cons_ne_nil other more) (n + 1)]
          simp [seen, labelList, Exposition.label, escaped]

theorem sampleText_eq_line {labels : List (LabelKey × Text)} (inLine : InLine labels) (name : Text)
    (value : Nat) :
    sampleText name labels value =
      Sample.line ⟨name, seen labels, decimal value⟩ ++ ['\n'] := by
  unfold sampleText pushLabels Sample.line
  by_cases none_given : labels = []
  · subst none_given
    simp [seen]
  · have none_seen : seen labels ≠ [] := by simpa [seen] using none_given
    rw [if_neg (by simpa using none_given), if_neg none_seen,
      pushed_eq_labelList inLine none_given 0]
    simp

theorem inLine_of_sampleText {name line : Text} {labels : List (LabelKey × Text)} {value : Nat}
    (written : sampleText name labels value = line ++ ['\n']) (oneLine : '\n' ∉ line) :
    InLine labels := by
  intro label membership found
  have same := List.append_cancel_right written
  apply oneLine
  obtain ⟨i, located⟩ := List.mem_iff_getElem?.mp membership
  have indexed : (label, i) ∈ labels.zipIdx := by
    rw [List.mem_zipIdx_iff_getElem?]
    exact located
  have some_label : labels.isEmpty = false := by
    cases labels with
    | nil => cases membership
    | cons => rfl
  rw [← same, pushLabels, some_label]
  simp only [Bool.false_eq_true, if_false, List.mem_append, List.mem_flatMap]
  refine .inl (.inl (.inr (.inl (.inr ⟨(label, i), indexed, ?_⟩))))
  simp [lineFeed_mem_prometheusLabel found]

theorem plain_labeled (metric : Metric) (labels : List (LabelKey × Text)) (value : Nat) :
    Sample.Plain ⟨metric.name, seen labels, decimal value⟩ where
  name := metric.plain
  keys := by
    intro entry membership
    obtain ⟨label, _, rfl⟩ := List.mem_map.mp membership
    exact label.1.plain
  value := notMem_decimal rfl value

theorem wellFormed_iff (metric : Metric) (labels : List (LabelKey × Text)) (value : Nat) :
    WellFormed metric labels value ↔ InLine labels := by
  constructor
  · intro wellFormed
    obtain ⟨line, written, oneLine, _⟩ := wellFormed.oneLine
    exact inLine_of_sampleText written oneLine
  · intro inLine
    have plain := plain_labeled metric labels value
    have written := sampleText_eq_line inLine metric.name value
    refine ⟨⟨_, written, lineFeed_notMem_line plain, readSample_line plain⟩,
      fun label _ => unescape_prometheusLabel label.2, fun others otherValue same => ?_⟩
    -- The other sample is one line too, and a line is read in one way.
    rw [written] at same
    have otherInLine := inLine_of_sampleText same (lineFeed_notMem_line plain)
    rw [sampleText_eq_line otherInLine] at same
    have read := readSample_line (plain_labeled metric others otherValue)
    rw [List.append_cancel_right same, readSample_line plain] at read
    exact (congrArg Sample.labels (Option.some.inj read)).symm

/-! ## The whole text -/

def helpLine (metric : Metric) : Text := helpWord ++ metric.name ++ [' '] ++ metric.help

/-- `more` are comments, and then the lines of the samples. -/
def Wrote (samples : List Sample) (more : List Text) : Prop :=
  (∀ line ∈ more, '\n' ∉ line) ∧
    more.filter (fun line => !isComment line) = samples.map Sample.line

theorem Wrote.append {first second : List Sample} {more later : List Text}
    (wrote : Wrote first more) (wroteLater : Wrote second later) :
    Wrote (first ++ second) (more ++ later) := by
  refine ⟨fun line membership => ?_, ?_⟩
  · exact (List.mem_append.mp membership).elim (wrote.1 line) (wroteLater.1 line)
  · rw [List.filter_append, List.map_append, wrote.2, wroteLater.2]

theorem wrote_samples {samples : List Sample} (plain : ∀ sample ∈ samples, sample.Plain) :
    Wrote samples (samples.map Sample.line) := by
  constructor
  · intro line membership
    obtain ⟨sample, listed, rfl⟩ := List.mem_map.mp membership
    exact lineFeed_notMem_line (plain sample listed)
  · refine List.filter_eq_self.mpr fun line membership => ?_
    obtain ⟨sample, listed, rfl⟩ := List.mem_map.mp membership
    rw [isComment_line (plain sample listed)]
    rfl

theorem writeHelpType_eq (o : Text) (metric : Metric) (ty : InstrumentKind) :
    writeHelpType o metric ty =
      o ++ unlines [helpLine metric, typeLine metric.name ++ ty.word] := by
  simp only [writeHelpType, helpLine, unlines, List.flatMap_cons, List.flatMap_nil,
    List.append_assoc, List.append_nil]

theorem wrote_header (metric : Metric) (ty : InstrumentKind) :
    Wrote [] [helpLine metric, typeLine metric.name ++ ty.word] := by
  have name := notMem_of_plain metric.plain (by decide : isNameChar '\n' = false)
  have help := metric.oneLine
  have kind : '\n' ∉ ty.word := by cases ty <;> decide
  constructor
  · intro line membership
    simp only [List.mem_cons, List.not_mem_nil, or_false] at membership
    have word : '\n' ∉ helpWord ∧ '\n' ∉ typeWord := by decide
    rcases membership with rfl | rfl
    · simp only [helpLine, List.mem_append, List.mem_singleton, word.1, name, help, or_false]
      decide
    · simp only [typeLine, List.mem_append, List.mem_singleton, word.2, name, kind, or_false]
      decide
  · rfl

def Grew (samples : List Sample) (o grown : Text) : Prop :=
  ∃ more, grown = o ++ unlines more ∧ Wrote samples more

theorem Grew.trans {first second : List Sample} {o middle grown : Text}
    (grew : Grew first o middle) (later : Grew second middle grown) :
    Grew (first ++ second) o grown := by
  obtain ⟨more, rfl, wrote⟩ := grew
  obtain ⟨others, rfl, wroteLater⟩ := later
  refine ⟨more ++ others, ?_, wrote.append wroteLater⟩
  rw [unlines_append, List.append_assoc]

theorem grew_header (o : Text) (metric : Metric) (ty : InstrumentKind) :
    Grew [] o (writeHelpType o metric ty) :=
  ⟨_, writeHelpType_eq o metric ty, wrote_header metric ty⟩

theorem grew_sample (o : Text) {sample : Sample} (plain : sample.Plain) :
    Grew [sample] o (o ++ (sample.line ++ ['\n'])) := by
  refine ⟨[sample.line], by simp [unlines], wrote_samples ?_⟩
  simpa using plain

theorem grew_labeled (o : Text) (ty : InstrumentKind) (metric : Metric)
    {labels : List (LabelKey × Text)} (inLine : InLine labels) (value : Nat) :
    Grew [⟨metric.name, seen labels, decimal value⟩] o (labeled ty o metric labels value) := by
  have plain := plain_labeled metric labels value
  unfold labeled
  dsimp only
  rw [sampleText_eq_line inLine]
  split
  · exact grew_sample o plain
  · exact (grew_header o metric ty).trans (grew_sample _ plain)

theorem plain_append {name more : Text} (plain : ∀ c ∈ name, isNameChar c = true)
    (morePlain : ∀ c ∈ more, isNameChar c = true) : ∀ c ∈ name ++ more, isNameChar c = true :=
  fun c found => (List.mem_append.mp found).elim (plain c) (morePlain c)

theorem plain_sumWord : ∀ c ∈ sumWord, isNameChar c = true := List.all_eq_true.mp (by decide)

theorem plain_countWord : ∀ c ∈ countWord, isNameChar c = true := List.all_eq_true.mp (by decide)

theorem plain_bucket (metric : Metric) (le : Text) (cum : Nat) :
    Sample.Plain ⟨metric.name ++ bucketWord, [(leKey, le)], decimal cum⟩ where
  name := plain_append metric.plain (List.all_eq_true.mp (by decide))
  keys := by
    intro entry membership
    rw [List.mem_singleton.mp membership]
    exact List.all_eq_true.mp (by decide : leKey.all isNameChar = true)
  value := notMem_decimal rfl cum

theorem grew_bucket (o : Text) (metric : Metric) {le : Text} (same : escape le = le) (cum : Nat) :
    Grew [⟨metric.name ++ bucketWord, [(leKey, le)], decimal cum⟩] o
      (pushBucket o metric.name le cum) := by
  have grew := grew_sample o (plain_bucket metric le cum)
  have written : pushBucket o metric.name le cum = o ++
      (Sample.line ⟨metric.name ++ bucketWord, [(leKey, le)], decimal cum⟩ ++ ['\n']) := by
    simp [pushBucket, Sample.line, labelList, Exposition.label, same]
  rw [written]
  exact grew

theorem escape_decimal (value : Nat) : escape (decimal value) = decimal value :=
  escape_eq_self (notMem_decimal rfl value) (notMem_decimal rfl value) (notMem_decimal rfl value)

theorem grew_buckets (metric : Metric) (bounds buckets : List Nat) (o : Text) (cum : Nat) :
    Grew (bucketSamples metric.name bounds buckets cum) o
      (pushBuckets metric.name o bounds buckets cum) := by
  induction bounds generalizing o buckets cum with
  | nil => exact grew_bucket o metric (by decide) _
  | cons le bounds inductionHypothesis =>
      exact (grew_bucket o metric (escape_decimal le) _).trans (inductionHypothesis ..)

theorem plain_bare (metric : Metric) {more : Text} (plain : ∀ c ∈ more, isNameChar c = true)
    (value : Nat) : Sample.Plain ⟨metric.name ++ more, [], decimal value⟩ where
  name := plain_append metric.plain plain
  keys := fun _ none_given => by cases none_given
  value := notMem_decimal rfl value

theorem grew_bare (o : Text) (metric : Metric) (more : Text)
    (plain : ∀ c ∈ more, isNameChar c = true) (value : Nat) :
    Grew [⟨metric.name ++ more, [], decimal value⟩] o
      (o ++ metric.name ++ more ++ [' '] ++ decimal value ++ ['\n']) := by
  have grew := grew_sample o (plain_bare metric plain value)
  have written : o ++ metric.name ++ more ++ [' '] ++ decimal value ++ ['\n'] =
      o ++ (Sample.line ⟨metric.name ++ more, [], decimal value⟩ ++ ['\n']) := by
    simp [Sample.line]
  rw [written]
  exact grew

theorem grew_push (o : Text) {call : MetricCall} (inLine : InLine call.labels) :
    Grew call.samples o (push o call) := by
  cases call with
  | counter metric value =>
      have nothing : ∀ c ∈ ([] : Text), isNameChar c = true := by simp
      have sample := grew_bare (writeHelpType o metric .counter) metric [] nothing value
      rw [List.append_nil, List.append_nil] at sample
      exact (grew_header o metric .counter).trans sample
  | counterLabeled metric labels value => exact grew_labeled o .counter metric inLine value
  | gauge metric labels value => exact grew_labeled o .gauge metric inLine value
  | histogram metric bounds snap =>
      have header := grew_header o metric .histogram
      have buckets := header.trans (grew_buckets metric bounds snap.buckets _ 0)
      have sum := buckets.trans (grew_bare _ metric sumWord plain_sumWord snap.sum)
      have whole := sum.trans (grew_bare _ metric countWord plain_countWord snap.count)
      rw [List.nil_append, List.append_assoc] at whole
      exact whole

theorem grew_foldl {calls : List MetricCall} (inLine : ∀ call ∈ calls, InLine call.labels)
    (o : Text) : Grew (calls.flatMap MetricCall.samples) o (calls.foldl push o) := by
  induction calls generalizing o with
  | nil => exact ⟨[], (List.append_nil o).symm, wrote_samples (by simp)⟩
  | cons call calls inductionHypothesis =>
      rw [List.flatMap_cons, List.foldl_cons]
      exact (grew_push o (inLine call List.mem_cons_self)).trans
        (inductionHypothesis (fun other later => inLine other (List.mem_cons_of_mem call later)) _)

theorem plain_bucketSamples (metric : Metric) (bounds buckets : List Nat) (cum : Nat) :
    ∀ sample ∈ bucketSamples metric.name bounds buckets cum, sample.Plain := by
  induction bounds generalizing buckets cum with
  | nil =>
      intro sample membership
      rw [List.mem_singleton.mp membership]
      exact plain_bucket metric infinity _
  | cons le bounds inductionHypothesis =>
      intro sample membership
      rcases List.mem_cons.mp membership with rfl | later
      · exact plain_bucket metric (decimal le) _
      · exact inductionHypothesis _ _ sample later

theorem plain_samples (call : MetricCall) : ∀ sample ∈ call.samples, sample.Plain := by
  cases call with
  | counter metric value =>
      intro sample membership
      rw [List.mem_singleton.mp membership]
      exact plain_labeled metric [] value
  | counterLabeled metric labels value =>
      intro sample membership
      rw [List.mem_singleton.mp membership]
      exact plain_labeled metric labels value
  | gauge metric labels value =>
      intro sample membership
      rw [List.mem_singleton.mp membership]
      exact plain_labeled metric labels value
  | histogram metric bounds snap =>
      intro sample membership
      rcases List.mem_append.mp membership with bucket | last
      · exact plain_bucketSamples metric bounds snap.buckets 0 sample bucket
      · simp only [List.mem_cons, List.not_mem_nil, or_false] at last
        rcases last with rfl | rfl
        · exact plain_bare metric plain_sumWord snap.sum
        · exact plain_bare metric plain_countWord snap.count

theorem labels_of_labeled? {call : MetricCall} {metric : Metric}
    {labels : List (LabelKey × Text)} {value : Nat}
    (isLabeled : call.labeled? = some (metric, labels, value)) : call.labels = labels := by
  cases call with
  | counter metric value => cases isLabeled
  | counterLabeled metric labels value =>
      cases isLabeled
      rfl
  | gauge metric labels value =>
      cases isLabeled
      rfl
  | histogram metric bounds snap => cases isLabeled

theorem labeled?_cases (call : MetricCall) :
    call.labels = [] ∨ ∃ metric value, call.labeled? = some (metric, call.labels, value) := by
  cases call with
  | counter metric value => exact .inl rfl
  | counterLabeled metric labels value => exact .inr ⟨metric, value, rfl⟩
  | gauge metric labels value => exact .inr ⟨metric, value, rfl⟩
  | histogram metric bounds snap => exact .inl rfl

/-- Whatever the names are, the text is read back as it was meant, if and only if none of them has
a line feed in it. -/
theorem faithful_iff (calls : List MetricCall) :
    Faithful calls ↔ ∀ call ∈ calls, InLine call.labels := by
  constructor
  · intro faithful call membership
    rcases labeled?_cases call with unlabeled | ⟨metric, value, isLabeled⟩
    · rw [unlabeled]
      exact fun label none_given => absurd none_given List.not_mem_nil
    · exact (wellFormed_iff metric call.labels value).mp
        (faithful.wellFormed call membership metric call.labels value isLabeled)
  · intro inLine
    constructor
    · intro call membership metric labels value isLabeled
      rw [wellFormed_iff, ← labels_of_labeled? isLabeled]
      exact inLine call membership
    · obtain ⟨more, rendered, oneLine, written⟩ := grew_foldl inLine []
      rw [renderPrometheus, rendered, List.nil_append]
      refine read_unlines oneLine (fun sample membership => ?_) written
      obtain ⟨call, _, listed⟩ := List.mem_flatMap.mp membership
      exact plain_samples call sample listed

def pathRtt : Metric :=
  ⟨"nya_path_rtt_us".toList, "path fast RTT".toList, List.all_eq_true.mp (by decide), by decide⟩

def pathKey : LabelKey := ⟨"path".toList, List.all_eq_true.mp (by decide)⟩

def linkKey : LabelKey := ⟨"link".toList, List.all_eq_true.mp (by decide)⟩

def forgedName : Text := "soy\nnya_sessions_live 9\n".toList

/-- The second line is read as a sample that no metric was given. -/
theorem faithful_forged :
    some ⟨"nya_sessions_live".toList, [], "9".toList⟩ ∈
        Exposition.read (renderPrometheus
          [.gauge pathRtt [(pathKey, forgedName), (linkKey, "soy".toList)] 12000]) ∧
      ¬ Faithful [.gauge pathRtt [(pathKey, forgedName), (linkKey, "soy".toList)] 12000] := by
  have forged : some ⟨"nya_sessions_live".toList, [], "9".toList⟩ ∈
      Exposition.read (renderPrometheus
        [.gauge pathRtt [(pathKey, forgedName), (linkKey, "soy".toList)] 12000]) := by
    decide +kernel
  refine ⟨forged, fun faithful => ?_⟩
  rw [faithful.read] at forged
  revert forged
  decide +kernel

end NyaLink.Catalog
