import LearnApue.Foundation.EventMachine

set_option autoImplicit false

/-!
# Gateway: reloads of the diagnostic page (`diagnostic.html`)

The page asks for the metrics of its channel every second and does not wait for the
answer before it asks again, so responses can arrive in any order.  `show` compares
the state of a response with the one shown before it, and assigns the video source
when the channel came back to `RUNNING`.

A request stands for the metrics that the server samples for it.  `shown` and
`reloaded` are history: the request of the last response shown, and of the last
response that made `show` reassign the video source.
-/

namespace LearnApue.Gateway.Diagnostic

open LearnApue.Foundation

/-! ## The transcription -/

/-- A JavaScript value.  A number comes with the texts that `String(value)` and
`value.toFixed(1)` make of it. -/
inductive JsValue where
  | null
  | undefined
  | number (text fixed : String)
  | string (text : String)
  | other (text : String)
deriving DecidableEq

/-- `String(value)`. -/
def JsValue.text : JsValue → String
  | .null => "null"
  | .undefined => "undefined"
  | .number text _ => text
  | .string text => text
  | .other text => text

/-- `data.progress`. -/
structure Progress where
  status : JsValue
  fps : JsValue
  bitrate : JsValue
  frames : JsValue
  dropFrames : JsValue

/-- `data.process_metrics`. -/
structure ProcessMetrics where
  status : JsValue
  cpuPercent : JsValue
  rssKib : JsValue

/-- What `show` reads of a response. -/
structure Data where
  id : JsValue
  state : JsValue
  ffmpegPid : JsValue
  consecutiveFailures : JsValue
  totalRestarts : JsValue
  progress : Option Progress
  processMetrics : Option ProcessMetrics

/-- The page: the texts of its elements, the assignments to `src` of its video,
oldest first, and `previousState`. -/
structure Page where
  texts : String → String
  sources : List String
  previousState : JsValue

/-- `put`. -/
def Page.put (page : Page) (id : String) (value : JsValue) : Page :=
  let text :=
    if value = .null ∨ value = .undefined ∨ value = .string "" then "unavailable" else value.text
  { page with texts := fun other => if other = id then text else page.texts other }

/-- `clearLive`. -/
def Page.clearLive (page : Page) : Page :=
  ["pid", "fps", "bitrate", "frames", "cpu", "rss"].foldl (fun page id => page.put id .null) page

/-- `data.state === "RUNNING"`. -/
def running : JsValue := .string "RUNNING"

/-- The condition under which `show` reassigns the video source. -/
def Page.recovers (page : Page) (state : JsValue) : Bool :=
  state = running && page.previousState ≠ .null && page.previousState ≠ running

/-- A template literal of two values around a slash. -/
def pair (first second : JsValue) : JsValue := .string (first.text ++ " / " ++ second.text)

/-- The part of `show` that prints the progress. -/
def Page.putProgress (page : Page) (progress : Option Progress) : Page :=
  match progress with
  | some progress =>
      if progress.status = .string "available" then
        ((page.put "fps" progress.fps).put "bitrate" progress.bitrate).put "frames"
          (pair progress.frames progress.dropFrames)
      else page
  | none => page

/-- The part of `show` that prints the process metrics, and whether it returns:
only a number has `toFixed`. -/
def Page.putProcess (page : Page) (metrics : Option ProcessMetrics) : Page × Bool :=
  match metrics with
  | some metrics =>
      if metrics.status = .string "available" then
        match metrics.cpuPercent with
        | .null => ((page.put "cpu" .null).put "rss" metrics.rssKib, true)
        | .number _ fixed =>
            ((page.put "cpu" (.string (fixed ++ "%"))).put "rss" metrics.rssKib, true)
        | _ => (page, false)
      else (page, true)
  | none => (page, true)

/-- The part of `show` that reassigns the video source and remembers the state. -/
def Page.follow (page : Page) (videoUrl : Option String) (state : JsValue) : Page :=
  let page :=
    match videoUrl with
    | some url =>
        if page.recovers state then { page with sources := page.sources ++ [url] } else page
    | none => page
  { page with previousState := state }

/-- The part of `show` that prints a response, and whether it returns. -/
def Page.putData (page : Page) (data : Data) : Page × Bool :=
  let page := (((page.put "channel" data.id).put "state" data.state).put "pid" data.ffmpegPid).put
    "failures" (pair data.consecutiveFailures data.totalRestarts)
  (page.putProgress data.progress).putProcess data.processMetrics

/-- `show`: the page, and whether it returns or throws. -/
def Page.showData (page : Page) (videoUrl : Option String) (data : Data) : Page × Bool :=
  (page.clearLive.follow videoUrl data.state).putData data

/-- The `catch` of `refresh`. -/
def Page.refreshFailed (page : Page) : Page :=
  (page.clearLive.put "state" .null).put "failures" .null

/-- `refresh` from the moment its response is there, or failed. -/
def Page.refreshEnds (page : Page) (videoUrl : Option String) : Option Data → Page
  | none => page.refreshFailed
  | some data =>
      match page.showData videoUrl data with
      | (page, true) => page
      | (page, false) => page.refreshFailed

/-- The page after its script has run, before the first response. -/
def Page.load (videoUrl : Option String) (channel : String) : Page :=
  let page : Page := ⟨fun _ => "unavailable", videoUrl.toList, .null⟩
  let page :=
    if videoUrl = none then
      page.put "hint" (.string "media_host unavailable · add ?media_host=BOARD_IP")
    else page
  page.put "channel" (.string channel)

/-! ## Requests and responses -/

/-- The page, the metrics sampled for its requests in the order of the requests, and
the requests that are over. -/
structure World where
  page : Page
  videoUrl : Option String
  sampled : List Data
  settled : List Nat
  shown : Option Nat
  reloaded : Option Nat

/-- A request with the metrics that are sampled for it, its response, or its failure. -/
inductive Event where
  | request (data : Data)
  | arrive (request : Nat)
  | fail (request : Nat)

/-- The page in front of its first request. -/
def World.start (videoUrl : Option String) (channel : String) : World :=
  ⟨Page.load videoUrl channel, videoUrl, [], [], none, none⟩

/-- A response makes `show` reassign the video source. -/
def World.Reloads (world : World) (data : Data) : Prop :=
  world.videoUrl ≠ none ∧ world.page.recovers data.state = true

instance (world : World) (data : Data) : Decidable (world.Reloads data) :=
  inferInstanceAs (Decidable (_ ∧ _))

/-- One event: a request ends once, by its response or by its failure. -/
def World.step (world : World) : Event → Option World
  | .request data => some { world with sampled := world.sampled ++ [data] }
  | .arrive request =>
      match world.sampled[request]? with
      | some data =>
          if request ∈ world.settled then none
          else some { world with
            page := world.page.refreshEnds world.videoUrl (some data)
            settled := request :: world.settled
            shown := some request
            reloaded := if world.Reloads data then some request else world.reloaded }
      | none => none
  | .fail request =>
      if request < world.sampled.length ∧ request ∉ world.settled then
        some { world with
          page := world.page.refreshEnds world.videoUrl none
          settled := request :: world.settled }
      else none

/-- The reassignments of the video source that `show` has made. -/
def World.reloads (world : World) : Nat := world.page.sources.length - world.videoUrl.toList.length

/-! ## Recoveries of the channel -/

/-- The channel is back to `RUNNING` between two successive samples. -/
def IsRise (sampled : List Data) (position : Nat) : Bool :=
  match sampled[position]?, sampled[position + 1]? with
  | some before, some after => before.state ≠ running && after.state = running
  | _, _ => false

/-- The recoveries before a position. -/
def risesBefore (sampled : List Data) (position : Nat) : Nat :=
  (List.range position).countP (IsRise sampled)

/-- The positions at which the sampled sequence changes to `RUNNING`. -/
def rises (sampled : List Data) : Nat := risesBefore sampled sampled.length

/-- No response that makes `show` reassign the video source has been overtaken: the
response shown last is of an earlier request, and of one that is not earlier than the
request that reloaded last. -/
def NotOvertaken (world : World) : Event → Prop
  | .arrive request => ∀ data before, world.sampled[request]? = some data → world.Reloads data →
      world.shown = some before → before < request ∧ ∀ last, world.reloaded = some last →
        last ≤ before
  | _ => True

/-! ## What a response does to the page -/

theorem putProgress_keeps (page : Page) (progress : Option Progress) :
    (page.putProgress progress).sources = page.sources ∧
      (page.putProgress progress).previousState = page.previousState := by
  unfold Page.putProgress
  split
  · split <;> exact ⟨rfl, rfl⟩
  · exact ⟨rfl, rfl⟩

theorem putProcess_keeps (page : Page) (metrics : Option ProcessMetrics) :
    (page.putProcess metrics).1.sources = page.sources ∧
      (page.putProcess metrics).1.previousState = page.previousState := by
  unfold Page.putProcess
  split
  · split
    · split <;> exact ⟨rfl, rfl⟩
    · exact ⟨rfl, rfl⟩
  · exact ⟨rfl, rfl⟩

theorem putData_keeps (page : Page) (data : Data) :
    (page.putData data).1.sources = page.sources ∧
      (page.putData data).1.previousState = page.previousState := by
  rw [Page.putData, (putProcess_keeps _ _).1, (putProcess_keeps _ _).2, (putProgress_keeps _ _).1,
    (putProgress_keeps _ _).2]
  exact ⟨rfl, rfl⟩

theorem follow_sources (page : Page) (videoUrl : Option String) (state : JsValue) :
    (page.follow videoUrl state).sources =
      page.sources ++ (if page.recovers state = true then videoUrl.toList else []) := by
  unfold Page.follow
  cases videoUrl with
  | none => simp
  | some url =>
    dsimp only
    split
    · rfl
    · rw [List.append_nil]

/-- `show` reassigns the source at a recovery, and remembers the state. -/
theorem showData_spec (page : Page) (videoUrl : Option String) (data : Data) :
    (page.showData videoUrl data).1.sources =
        page.sources ++ (if page.recovers data.state = true then videoUrl.toList else []) ∧
      (page.showData videoUrl data).1.previousState = data.state := by
  obtain ⟨hsources, hprevious⟩ := putData_keeps (page.clearLive.follow videoUrl data.state) data
  rw [Page.showData, hsources, hprevious, follow_sources]
  exact ⟨rfl, rfl⟩

theorem refreshEnds_spec (page : Page) (videoUrl : Option String) (data : Data) :
    (page.refreshEnds videoUrl (some data)).sources =
        page.sources ++ (if page.recovers data.state = true then videoUrl.toList else []) ∧
      (page.refreshEnds videoUrl (some data)).previousState = data.state := by
  have hshow := showData_spec page videoUrl data
  unfold Page.refreshEnds
  dsimp only
  split
  · rename_i after hafter
    rwa [hafter] at hshow
  · rename_i after hafter
    rwa [hafter] at hshow

/-! ## Counting recoveries -/

theorem risesBefore_succ (sampled : List Data) (position : Nat) :
    risesBefore sampled (position + 1) =
      risesBefore sampled position + if IsRise sampled position then 1 else 0 := by
  rw [risesBefore, List.range_succ, List.countP_append, List.countP_singleton, risesBefore]

theorem risesBefore_mono (sampled : List Data) {first later : Nat} (h : first ≤ later) :
    risesBefore sampled first ≤ risesBefore sampled later :=
  (List.range_sublist.mpr h).countP_le

/-- Between a sample that is not `RUNNING` and a later one that is, there is a
recovery. -/
theorem risesBefore_lt {sampled : List Data} {first later : Nat} {before after : Data}
    (hlt : first < later) (hbefore : sampled[first]? = some before)
    (hafter : sampled[later]? = some after) (hdown : before.state ≠ running)
    (hup : after.state = running) : risesBefore sampled first < risesBefore sampled later := by
  induction later generalizing after with
  | zero => omega
  | succ later ih =>
    have hlength : later + 1 < sampled.length := (List.getElem?_eq_some_iff.mp hafter).1
    have hmiddle : sampled[later]? = some sampled[later] := List.getElem?_eq_getElem (by omega)
    rw [risesBefore_succ]
    by_cases hrunning : sampled[later].state = running
    · have hne : first ≠ later := by
        rintro rfl
        rw [hbefore, Option.some.injEq] at hmiddle
        rw [← hmiddle] at hrunning
        exact hdown hrunning
      have hless := ih (by omega) hmiddle hrunning
      omega
    · have hrise : IsRise sampled later = true := by
        rw [IsRise, hmiddle, hafter]
        simp [hrunning, hup]
      have hle := risesBefore_mono sampled (show first ≤ later by omega)
      rw [if_pos hrise]
      omega

/-- A new sample does not change what was counted before. -/
theorem risesBefore_concat {sampled : List Data} {position : Nat} (h : position < sampled.length)
    (data : Data) : risesBefore (sampled ++ [data]) position = risesBefore sampled position := by
  apply List.countP_congr
  intro n hn
  have hlt := List.mem_range.mp hn
  rw [IsRise, IsRise, List.getElem?_append_left (by omega), List.getElem?_append_left (by omega)]

/-! ## Runs -/

/-- What the page knows of the samples, and how often it has reassigned the source. -/
structure Follows (world : World) : Prop where
  none_ : world.shown = none → world.page.previousState = .null
  some_ : ∀ request, world.shown = some request →
    ∃ data, world.sampled[request]? = some data ∧ world.page.previousState = data.state
  reloaded : ∀ last, world.reloaded = some last → last < world.sampled.length
  bound : world.page.sources.length ≤
    world.videoUrl.toList.length + risesBefore world.sampled (world.reloaded.getD 0)

theorem Follows.request {world : World} (h : Follows world) (data : Data) :
    Follows { world with sampled := world.sampled ++ [data] } where
  none_ := h.none_
  some_ := by
    intro request hrequest
    obtain ⟨shown, hshown, hstate⟩ := h.some_ request hrequest
    exact ⟨shown, by rw [List.getElem?_append_left (List.getElem?_eq_some_iff.mp hshown).1, hshown],
      hstate⟩
  reloaded := by
    intro last hlast
    rw [List.length_append]
    exact Nat.lt_add_right _ (h.reloaded last hlast)
  bound := by
    have hbound := h.bound
    cases hlast : world.reloaded with
    | none =>
      rw [hlast] at hbound
      exact hbound
    | some last =>
      rw [hlast] at hbound
      dsimp only [Option.getD_some] at hbound ⊢
      rw [risesBefore_concat (h.reloaded last hlast)]
      exact hbound

/-- A response that reloads comes behind a recovery that was not counted yet. -/
theorem Follows.arrive {world : World} (h : Follows world) {request : Nat} {data : Data}
    (hdata : world.sampled[request]? = some data)
    (hnot : NotOvertaken world (.arrive request)) :
    Follows { world with
      page := world.page.refreshEnds world.videoUrl (some data)
      settled := request :: world.settled
      shown := some request
      reloaded := if world.Reloads data then some request else world.reloaded } := by
  obtain ⟨hsources, hprevious⟩ := refreshEnds_spec world.page world.videoUrl data
  have hlength : request < world.sampled.length := (List.getElem?_eq_some_iff.mp hdata).1
  refine ⟨nofun, ?_, ?_, ?_⟩
  · rintro _ ⟨⟩
    exact ⟨data, hdata, hprevious⟩
  · intro last hlast
    dsimp only at hlast
    split at hlast
    · cases hlast
      exact hlength
    · exact h.reloaded last hlast
  · have hbound := h.bound
    dsimp only
    rw [hsources]
    by_cases hreloads : world.Reloads data
    · obtain ⟨hsome, hrecovers⟩ := id hreloads
      obtain ⟨url, hurl⟩ := Option.ne_none_iff_exists'.mp hsome
      rw [if_pos hrecovers, if_pos hreloads, List.length_append]
      simp only [Page.recovers, Bool.and_eq_true, decide_eq_true_eq] at hrecovers
      obtain ⟨⟨hup, hnull⟩, hdown⟩ := hrecovers
      cases hshown : world.shown with
      | none => exact absurd (h.none_ hshown) hnull
      | some before =>
        obtain ⟨old, hold, hstate⟩ := h.some_ before hshown
        obtain ⟨hlt, hlast⟩ := hnot data before hdata hreloads hshown
        have hrise := risesBefore_lt hlt hold hdata (hstate ▸ hdown) hup
        have hcounted : risesBefore world.sampled (world.reloaded.getD 0) ≤
            risesBefore world.sampled before := by
          apply risesBefore_mono
          cases hreloaded : world.reloaded with
          | none => exact Nat.zero_le _
          | some last => exact hlast last hreloaded
        rw [hurl] at hbound ⊢
        simp only [Option.toList_some, List.length_singleton, Option.getD_some] at hbound ⊢
        omega
    · rw [if_neg hreloads]
      have hnone : (if world.page.recovers data.state = true then world.videoUrl.toList else []) =
          [] := by
        split
        · rename_i hrecovers
          by_contra hsome
          exact hreloads ⟨fun hurl => hsome (by rw [hurl]; rfl), hrecovers⟩
        · rfl
      rw [hnone, List.append_nil]
      exact hbound

theorem Follows.step {world next : World} {event : Event} (h : Follows world)
    (hnot : NotOvertaken world event) (hstep : world.step event = some next) : Follows next := by
  cases event with
  | request data =>
    cases hstep
    exact h.request data
  | arrive request =>
    simp only [World.step] at hstep
    split at hstep
    · rename_i data hdata
      split at hstep
      · cases hstep
      · cases hstep
        exact h.arrive hdata hnot
    · cases hstep
  | fail request =>
    simp only [World.step] at hstep
    split at hstep
    · cases hstep
      exact ⟨h.none_, h.some_, h.reloaded, h.bound⟩
    · cases hstep

theorem follows_start (videoUrl : Option String) (channel : String) :
    Follows (World.start videoUrl channel) := by
  have hload : (Page.load videoUrl channel).sources = videoUrl.toList ∧
      (Page.load videoUrl channel).previousState = .null := by
    cases videoUrl <;> exact ⟨rfl, rfl⟩
  refine ⟨fun _ => hload.2, nofun, nofun, ?_⟩
  show (Page.load videoUrl channel).sources.length ≤ videoUrl.toList.length + _
  rw [hload.1]
  exact Nat.le_add_right _ _

/-- One reload for each recovery.  In every run in which no reloading response was
overtaken, the source is reassigned at most as often as the sampled states come back to
`RUNNING`. -/
theorem reloads_le_rises (videoUrl : Option String) (channel : String) (events : List Event)
    (h : EventMachine.Meets World.step NotOvertaken (World.start videoUrl channel) events) :
    (EventMachine.run World.step (World.start videoUrl channel) events).reloads ≤
      rises (EventMachine.run World.step (World.start videoUrl channel) events).sampled := by
  have hfollows : Follows (EventMachine.run World.step (World.start videoUrl channel) events) :=
    h.run_induction Follows (fun _ _ _ hi hnot hs => hi.step hnot hs) (follows_start videoUrl channel)
  generalize EventMachine.run World.step (World.start videoUrl channel) events = world at hfollows
  have hbound := hfollows.bound
  have hmono : risesBefore world.sampled (world.reloaded.getD 0) ≤ rises world.sampled := by
    apply risesBefore_mono
    cases hlast : world.reloaded with
    | none => exact Nat.zero_le _
    | some last => exact (hfollows.reloaded last hlast).le
  unfold World.reloads
  omega

/-! ## Responses in the order of their requests -/

/-- A response that arrives is of a later request than the one shown last. -/
def InOrder (world : World) : Event → Prop
  | .arrive request => ∀ before ∈ world.shown, before < request
  | _ => True

instance (world : World) : (event : Event) → Decidable (InOrder world event)
  | .arrive request => inferInstanceAs (Decidable (∀ before ∈ world.shown, before < request))
  | .request _ => .isTrue trivial
  | .fail _ => .isTrue trivial

/-- Responses in the order of their requests do not overtake one another, whichever
requests fail. -/
theorem notOvertaken_of_inOrder {videoUrl : Option String} {channel : String} {events : List Event}
    (h : EventMachine.Meets World.step InOrder (World.start videoUrl channel) events) :
    EventMachine.Meets World.step NotOvertaken (World.start videoUrl channel) events := by
  refine h.of_inv (fun world => ∀ last, world.reloaded = some last →
    ∃ before, world.shown = some before ∧ last ≤ before) ?_ nofun
  intro world event next hlast horder hstep
  cases event with
  | request data =>
    cases hstep
    exact ⟨trivial, hlast⟩
  | arrive request =>
    refine ⟨fun data before _ _ hshown => ⟨horder before hshown, fun last hreloaded => ?_⟩, ?_⟩
    · obtain ⟨shown, hshown', hle⟩ := hlast last hreloaded
      rw [hshown, Option.some.injEq] at hshown'
      exact hshown' ▸ hle
    · simp only [World.step] at hstep
      split at hstep
      · split at hstep
        · cases hstep
        · cases hstep
          intro last hreloaded
          refine ⟨request, rfl, ?_⟩
          dsimp only at hreloaded
          split at hreloaded
          · cases hreloaded
            exact le_rfl
          · obtain ⟨before, hshown, hle⟩ := hlast last hreloaded
            exact hle.trans (horder before hshown).le
      · cases hstep
  | fail request =>
    refine ⟨trivial, ?_⟩
    simp only [World.step] at hstep
    split at hstep
    · cases hstep
      exact hlast
    · cases hstep

/-- A response in some channel state. -/
def inState (state : String) : Data :=
  ⟨.string "cam01", .string state, .null, .number "0" "0.0", .number "0" "0.0", none, none⟩

/-- Four responses in the order of their requests. -/
theorem reloads_le_rises_in_order :
    (EventMachine.run World.step (World.start (some "http://board:8889/cam01") "cam01")
        [.request (inState "BACKOFF"), .request (inState "BACKOFF"), .request (inState "RUNNING"),
          .request (inState "RUNNING"), .arrive 0, .arrive 1, .arrive 2, .arrive 3]).reloads ≤
      rises (EventMachine.run World.step (World.start (some "http://board:8889/cam01") "cam01")
        [.request (inState "BACKOFF"), .request (inState "BACKOFF"), .request (inState "RUNNING"),
          .request (inState "RUNNING"), .arrive 0, .arrive 1, .arrive 2, .arrive 3]).sampled :=
  reloads_le_rises _ _ _ (notOvertaken_of_inOrder (by decide +kernel))

/-- The third response overtakes the second one: one recovery, and two reloads. -/
theorem reloads_overtaken :
    (EventMachine.run World.step (World.start (some "http://board:8889/cam01") "cam01")
        [.request (inState "BACKOFF"), .request (inState "BACKOFF"), .request (inState "RUNNING"),
          .request (inState "RUNNING"), .arrive 0, .arrive 2, .arrive 1, .arrive 3]).reloads = 2 ∧
      rises (EventMachine.run World.step (World.start (some "http://board:8889/cam01") "cam01")
        [.request (inState "BACKOFF"), .request (inState "BACKOFF"), .request (inState "RUNNING"),
          .request (inState "RUNNING"), .arrive 0, .arrive 2, .arrive 1, .arrive 3]).sampled = 1 := by
  decide +kernel

end LearnApue.Gateway.Diagnostic
