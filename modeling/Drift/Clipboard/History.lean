import Drift.Clipboard.Sync
import Drift.Lib.Transition

/-!
# Histories of the clipboard state

A run feeds a clipboard state with inputs while the session clock advances. Its record is the list of
the calls, each with the state it found and the actions it returned; the summaries below read off a
record what the server, the user and the pasteboard saw.
-/

namespace Drift.Clipboard

/-- A clipboard state and the session clock. -/
structure Clocked where
  now : Instant
  sync : ClipboardSync

/-- An input and the time since the one before it. -/
structure Timed where
  elapsed : Duration
  input : SyncInput

structure Call where
  now : Instant
  before : ClipboardSync
  input : SyncInput
  actions : List SyncAction

namespace Clocked

def start (prefs : ClipboardPrefs) (focused : Bool) : Clocked := ⟨0, .new prefs focused⟩

def step (images : ImageCodec) (c : Clocked) (e : Timed) : Clocked × List Call :=
  let now := c.now + e.elapsed
  let handled := c.sync.handle images now e.input
  (⟨now, handled.1⟩, [⟨now, c.sync, e.input, handled.2⟩])

/-- The state after some inputs, and the record of the calls. -/
def history (images : ImageCodec) (prefs : ClipboardPrefs) (focused : Bool) (es : List Timed) :
    Clocked × List Call :=
  Transition.run (step images) (start prefs focused) es

end Clocked

namespace SyncAction

def formatList? : SyncAction → Option (List ClipFormat)
  | sendFormatList formats => some formats
  | _ => none

def request? : SyncAction → Option ClipFormat
  | requestRemoteData format => some format
  | _ => none

def write? : SyncAction → Option ClipboardContents
  | writePasteboard contents => some contents
  | _ => none

end SyncAction

/-! ### Readiness -/

namespace Asked

/-- The server has asked for the initial format list. -/
def observe (m : Bool) (c : Call) : Bool := m || c.input matches .initialFormatListRequested

/-- Nothing is advertised to a server that has not asked. -/
def Quiet (m : Bool) (c : Call) : Prop :=
  observe m c = false → c.actions.filterMap SyncAction.formatList? = []

instance (m : Bool) (c : Call) : Decidable (Quiet m c) :=
  inferInstanceAs (Decidable (_ → _))

end Asked

/-- A gain of focus advertises a local change before the channel is ready. -/
def ClipboardSync.advertisesEarly (s : ClipboardSync) : SyncInput → Bool
  | .focus focused => focused && s.pendingLocal && !s.ready
  | _ => false

/-! ### Preferences -/

namespace InForce

/-- The preference in force during and after a call. -/
def observe (prefs : ClipboardPrefs) (c : Call) : ClipboardPrefs :=
  match c.input with
  | .prefs prefs => prefs
  | _ => prefs

/-- The contents are shared under a preference. -/
def Allows (prefs : ClipboardPrefs) (contents : ClipboardContents) : Prop :=
  prefs ≠ .off ∧ ∀ item ∈ contents.items, item.kind.allowedBy prefs

instance (prefs : ClipboardPrefs) (contents : ClipboardContents) :
    Decidable (Allows prefs contents) :=
  inferInstanceAs (Decidable (_ ∧ _))

/-- The preference in force allows what is written to the pasteboard. -/
def Permitted (prefs : ClipboardPrefs) (c : Call) : Prop :=
  ∀ contents ∈ c.actions.filterMap SyncAction.write?, Allows (observe prefs c) contents

instance (prefs : ClipboardPrefs) (c : Call) : Decidable (Permitted prefs c) :=
  inferInstanceAs (Decidable (∀ contents ∈ c.actions.filterMap SyncAction.write?, _))

end InForce

namespace ClipboardSync

/-- A change of preference leaves the fetch in progress alone: the session is not focused on a ready
channel, or sharing stays on and there is nothing local to advertise. -/
def keepsFetch (s : ClipboardSync) (prefs : ClipboardPrefs) : Bool :=
  !(s.ready && s.focused) || (prefs ≠ .off && s.local'.isNone)

/-- The fetch in progress has, awaits or is about to request something a preference excludes. -/
def fetchesExcluded (s : ClipboardSync) (prefs : ClipboardPrefs) : Bool :=
  s.fetch.any fun fetch =>
    fetch.items.any (!·.kind.allowedBy prefs) || fetch.queue.any (!·.2.allowedBy prefs) ||
      s.inflight.any fun i => !i.stale && !i.kind.allowedBy prefs

/-- A change of preference keeps a fetch of something it excludes. -/
def keepsExcluded (s : ClipboardSync) : SyncInput → Bool
  | .prefs prefs => prefs ≠ s.prefs && s.keepsFetch prefs && s.fetchesExcluded prefs
  | _ => false

end ClipboardSync

/-! ### Requests and answers -/

/-- A request on the wire; it is current when it asks for a format of the list accepted last. -/
structure Request where
  format : ClipFormat
  since : Instant
  current : Bool
  deriving DecidableEq

/-- An answer, decoded as the kind it was requested for. -/
def Request.decode (images : ImageCodec) (r : Request) (data : Option Bytes) :
    Option ClipboardItem :=
  r.format.kind.bind fun kind => (ClipboardSync.decodeResponse images kind data).toOption

/-- What the server and the pasteboard see of the fetches: the formats of the list accepted last, the
requests not yet answered, oldest first, the decodings of the answers to current requests, in order,
and what has been written since the list was accepted. -/
structure Exchange where
  offered : List ClipFormat
  pending : List Request
  answers : List ClipboardItem
  written : List ClipboardContents
  deriving DecidableEq

namespace Exchange

def start : Exchange := ⟨[], [], [], []⟩

def accept (m : Exchange) (formats : List ClipFormat) : Exchange where
  offered := formats
  pending := m.pending.map fun r => { r with current := false }
  answers := []
  written := []

def answer (images : ImageCodec) (m : Exchange) (data : Option Bytes) : Exchange :=
  match m.pending with
  | [] => m
  | r :: pending =>
    { m with
      pending := pending
      answers := if r.current then m.answers ++ (r.decode images data).toList else m.answers }

def act (now : Instant) (m : Exchange) : SyncAction → Exchange
  | .requestRemoteData format =>
    { m with pending := m.pending ++ [⟨format, now, format ∈ m.offered⟩] }
  | .writePasteboard contents => { m with written := m.written ++ [contents] }
  | _ => m

/-- What an input means before the actions that follow it. -/
def take (images : ImageCodec) (m : Exchange) (s : ClipboardSync) (now : Instant) :
    SyncInput → Exchange
  | .remoteFormatList formats =>
    if s.canSync && !s.isEcho formats now then m.accept formats else m
  | .remoteData data => m.answer images data
  | _ => m

def observe (images : ImageCodec) (m : Exchange) (c : Call) : Exchange :=
  c.actions.foldl (act c.now) (m.take images c.before c.now c.input)

/-- The server answers what it was asked, and no tick finds a request that is overdue. -/
def Served (c : Clocked) (m : Exchange) (e : Timed) : Prop :=
  match e.input with
  | .remoteData _ => m.pending ≠ []
  | .tick => ∀ r ∈ m.pending, c.now + e.elapsed - r.since < fetchTimeout
  | _ => True

instance (c : Clocked) (m : Exchange) : ∀ e, Decidable (Served c m e)
  | ⟨_, .remoteData _⟩ => inferInstanceAs (Decidable (_ ≠ []))
  | ⟨_, .tick⟩ => inferInstanceAs (Decidable (∀ r ∈ m.pending, _))
  | ⟨_, .initialFormatListRequested⟩ | ⟨_, .remoteFormatList _⟩ | ⟨_, .remoteDataRequest _⟩
  | ⟨_, .localChanged _ _⟩ | ⟨_, .localWritten _⟩ | ⟨_, .focus _⟩ | ⟨_, .prefs _⟩ => isTrue trivial

/-- One request at a time is outstanding, and what is written is what the answers for the list accepted
last decode to, in the order of the requests. -/
def Attributed (images : ImageCodec) (m : Exchange) (c : Call) : Prop :=
  (m.observe images c).pending.length ≤ 1 ∧
    ∀ contents ∈ c.actions.filterMap SyncAction.write?,
      contents.items = (m.observe images c).answers

/-- Every request is answered in time, with data that can be decoded. -/
def Answered (images : ImageCodec) (c : Clocked) (m : Exchange) (e : Timed) : Prop :=
  (∀ r ∈ m.pending, c.now + e.elapsed - r.since < fetchTimeout) ∧
    match e.input with
    | .remoteData data => m.pending.head?.any fun r => (r.decode images data).isSome
    | _ => True

instance (images : ImageCodec) (c : Clocked) (m : Exchange) :
    ∀ e, Decidable (Answered images c m e)
  | ⟨_, .remoteData _⟩ => inferInstanceAs (Decidable ((∀ r ∈ m.pending, _) ∧ _ = true))
  | ⟨_, .tick⟩ | ⟨_, .initialFormatListRequested⟩ | ⟨_, .remoteFormatList _⟩
  | ⟨_, .remoteDataRequest _⟩ | ⟨_, .localChanged _ _⟩ | ⟨_, .localWritten _⟩ | ⟨_, .focus _⟩
  | ⟨_, .prefs _⟩ => inferInstanceAs (Decidable ((∀ r ∈ m.pending, _) ∧ True))

end Exchange

/-! ### Timeouts -/

/-- The request whose answer is awaited; it is the fetch's own until another list is accepted. -/
structure Waiting where
  since : Instant
  own : Bool
  deriving DecidableEq

namespace Waiting

/-- The request has been outstanding for the whole timeout. -/
def Overdue (w : Waiting) (now : Instant) : Prop := fetchTimeout ≤ now - w.since

instance (w : Waiting) (now : Instant) : Decidable (w.Overdue now) :=
  inferInstanceAs (Decidable (_ ≤ _))

/-- What an input means before the actions that follow it. -/
def take (m : Option Waiting) (s : ClipboardSync) (now : Instant) : SyncInput → Option Waiting
  | .remoteFormatList formats =>
    if s.canSync && !s.isEcho formats now then m.map fun w => { w with own := false } else m
  | .remoteData _ => none
  | .tick => m.filter fun w => ¬ w.Overdue now
  | _ => m

def act (now : Instant) (m : Option Waiting) : SyncAction → Option Waiting
  | .requestRemoteData _ => some ⟨now, true⟩
  | _ => m

def observe (m : Option Waiting) (st : Transition.Step Clocked Timed Call) : Option Waiting :=
  st.outs.foldl (fun m c => c.actions.foldl (act c.now) (take m c.before c.now c.input)) m

/-- A tick gives up a fetch only when the fetch's own request is overdue, and sends the first request of a
fetch that waits behind an overdue one. -/
def Patient (m : Option Waiting) (st : Transition.Step Clocked Timed Call) : Prop :=
  st.input.input = .tick → ∀ fetch ∈ st.before.sync.fetch,
    (st.after.sync.fetch = none → ∃ w ∈ m, w.own = true ∧ w.Overdue st.after.now) ∧
    ∀ w ∈ m, w.own = false → w.Overdue st.after.now →
      ∃ next ∈ fetch.queue.head?,
        (st.outs.flatMap Call.actions).filterMap SyncAction.request? = [next.1]

instance (m : Option Waiting) (st : Transition.Step Clocked Timed Call) : Decidable (Patient m st) :=
  inferInstanceAs (Decidable (_ → ∀ fetch ∈ st.before.sync.fetch,
    (_ → ∃ w ∈ m, _ ∧ _) ∧ ∀ w ∈ m, _ → _ → ∃ next ∈ fetch.queue.head?, _ = _))

end Waiting

/-- A tick finds a fetch that waits behind a superseded request which is overdue. -/
def ClipboardSync.dropsQueued (s : ClipboardSync) (now : Instant) : SyncInput → Bool
  | .tick => s.fetch.isSome && s.inflight.any fun i => i.stale && fetchTimeout ≤ now - i.since
  | _ => false

/-! ### Offers -/

/-- What the server may ask for: the formats announced since the last local copy or change of preference,
those of the last list, and the contents this list was made from. -/
structure Offer where
  announced : List Nat
  last : List Nat
  contents : ClipboardContents

namespace Offer

def start : Offer := ⟨[], [], .empty⟩

/-- The input is a copy of the user or another preference. -/
def ends (s : ClipboardSync) : SyncInput → Bool
  | .localChanged changeCount contents =>
    s.lastLocalChangeCount ≠ some changeCount && !s.isOwn changeCount contents
  | .prefs prefs => prefs ≠ s.prefs
  | _ => false

/-- A list is sent; one that is empty may be made from nothing. -/
def announce (s : ClipboardSync) (m : Offer) (formats : List ClipFormat) : Offer where
  announced := m.announced ++ formats.map ClipFormat.id
  last := formats.map ClipFormat.id
  contents :=
    if formats.isEmpty then .empty
    else (filterLocal ((s.local'.map (·.contents)).getD .empty) s.prefs).1

def observe (m : Offer) (st : Transition.Step Clocked Timed Call) : Offer :=
  let m := if ends st.before.sync st.input.input then { m with announced := [] } else m
  ((st.outs.flatMap Call.actions).filterMap SyncAction.formatList?).foldl (announce st.after.sync) m

/-- The image that is offered is a PNG that can be read. -/
def Valid (images : ImageCodec) (contents : ClipboardContents) : Prop :=
  ∀ png ∈ findPng contents, pngSignature.isPrefixOf png = true ∧
    ∃ rgba, images.loadPng png = .ok rgba ∧ 0 < rgba.width ∧ 0 < rgba.height

/-- A request for a format that was announced gets its data. -/
def Served (images : ImageCodec) (m : Offer) (st : Transition.Step Clocked Timed Call) : Prop :=
  ∀ id, st.input.input = .remoteDataRequest id → id ∈ m.announced → Valid images m.contents →
    ∃ data, st.outs.flatMap Call.actions = [.sendData id (.ok data)]

def codeUnits (c : Char) : Nat := if c.toNat < 0x10000 then 1 else 2

/-- A character and the one before it: a line feed without its carriage return. -/
def needsReturn (pair : Char × Char) : Bool := pair.2 = '\n' && pair.1 ≠ '\r'

/-- The bytes of a text on the wire: two for every code unit, for every carriage return that is put in
before a line feed, and for the terminator. -/
def textBytes (text : String) : Nat :=
  let returns := ((Char.ofNat 0 :: text.toList).zip text.toList).countP needsReturn
  2 * ((text.toList.map codeUnits).sum + returns + 1)

def bitmapBytes (rgba : RgbaImage) : Nat := bitmapInfoHeaderLen + rgba.width * rgba.height * 4

/-- The encoding of a format, where it is longer than the contents, is within the limit too. -/
def Fits (images : ImageCodec) (contents : ClipboardContents) (id : Nat) : Prop :=
  (id = cfUnicodeText → ∀ text ∈ contents.text, textBytes text ≤ maxClipboardBytes) ∧
    (id = cfDib → ∀ png ∈ findPng contents, ∀ rgba, images.loadPng png = .ok rgba →
      bitmapBytes rgba ≤ maxClipboardBytes)

/-- A request for a format that was announced finds it on the last list, with an encoding within the
limit. -/
def Within (images : ImageCodec) (m : Offer) (input : SyncInput) : Prop :=
  ∀ id, input = .remoteDataRequest id → id ∈ m.announced → Valid images m.contents →
    id ∈ m.last ∧ Fits images m.contents id

end Offer

/-- The inputs that may follow the newest copy. -/
def SyncInput.isQuiet : SyncInput → Bool
  | remoteFormatList _ | prefs _ | focus _ => false
  | _ => true

/-- A fetch in progress loses to what is local: a local change that is reported after the announcement,
or counts as a copy of the user, or a repeated request for the initial list. -/
def ClipboardSync.disturbs (s : ClipboardSync) (now : Instant) (input : SyncInput) : Bool :=
  s.fetch.any fun fetch =>
    match input with
    | .localChanged changeCount contents =>
      s.lastLocalChangeCount ≠ some changeCount &&
        (!s.isOwn changeCount contents || fetch.announced < now)
    | .initialFormatListRequested => s.local'.isSome
    | _ => false

/-- An image library that takes every bitmap for a PNG and reads no image. -/
def sampleImages : ImageCodec := ⟨.ok, fun _ => .error (.invalidImage "unsupported")⟩

end Drift.Clipboard
