import Drift.Clipboard.Formats
import Drift.Core.State
import Mathlib.Data.List.Sort

/-!
# Clipboard synchronisation

The state of the clipboard channel of one leg. `handle` takes one input, with the time on the session
clock, and returns the actions to execute in order. One request for remote data is in flight at a
time; a request that is superseded is marked stale and its response dropped.
-/

namespace Drift.Clipboard

def fetchTimeout : Duration := .fromSecs 5

def echoWindow : Duration := .fromMillis 500

def ownWritesKept : Nat := 8

inductive SyncInput where
  | initialFormatListRequested
  | remoteFormatList (formats : List ClipFormat)
  | remoteData (data : Option Bytes)
  | remoteDataRequest (formatId : Nat)
  | localChanged (changeCount : Int) (contents : ClipboardContents)
  | localWritten (changeCount : Int)
  | focus (focused : Bool)
  | prefs (prefs : ClipboardPrefs)
  | tick
  deriving DecidableEq

inductive SyncAction where
  | sendFormatList (formats : List ClipFormat)
  | requestRemoteData (format : ClipFormat)
  | sendData (formatId : Nat) (data : Except ClipError Bytes)
  | writePasteboard (contents : ClipboardContents)
  | rejected (error : ClipError)

/-- The latest local pasteboard state seen. -/
structure LocalSnapshot where
  contents : ClipboardContents
  at' : Instant
  deriving DecidableEq

/-- A remote clipboard being fetched, one format at a time. -/
structure RemoteFetch where
  queue : List (ClipFormat × FormatKind)
  items : List ClipboardItem
  announced : Instant
  deriving DecidableEq

/-- The request on the wire. -/
structure Inflight where
  kind : FormatKind
  since : Instant
  stale : Bool
  deriving DecidableEq

structure ClipboardSync where
  prefs : ClipboardPrefs
  focused : Bool
  ready : Bool
  local' : Option LocalSnapshot
  lastLocalChangeCount : Option Int
  /-- A local change this server has not been told about yet. -/
  pendingLocal : Bool
  /-- What was last advertised, filtered. -/
  advertised : ClipboardContents
  lastSent : Option (List (Option FormatKind) × Instant)
  ownWrites : List Int
  /-- The contents of a write not yet acknowledged by `localWritten`. -/
  unackedWrite : Option ClipboardContents
  fetch : Option RemoteFetch
  inflight : Option Inflight
  deriving DecidableEq

/-- The kinds of a format list in their derived order, unknown ones first. -/
def sortedKinds (formats : List ClipFormat) : List (Option FormatKind) :=
  let key : Option FormatKind → Nat := fun k => k.elim 0 (·.rank + 1)
  (formats.map ClipFormat.kind).insertionSort fun k l => key k ≤ key l

namespace ClipboardSync

abbrev Acting := ClipboardSync × List SyncAction

def new (prefs : ClipboardPrefs) (focused : Bool) : ClipboardSync where
  prefs := prefs
  focused := focused
  ready := false
  local' := none
  lastLocalChangeCount := none
  pendingLocal := false
  advertised := .empty
  lastSent := none
  ownWrites := []
  unackedWrite := none
  fetch := none
  inflight := none

def canSync (s : ClipboardSync) : Bool := s.ready && s.focused && s.prefs ≠ ClipboardPrefs.off

def sendList (s : ClipboardSync) (formats : List ClipFormat) (now : Instant) : Acting :=
  ({ s with lastSent := some (sortedKinds formats, now) }, [.sendFormatList formats])

def supersedeFetch (s : ClipboardSync) : ClipboardSync :=
  { s with
    fetch := none
    inflight := s.inflight.map fun i => { i with stale := true } }

/-- What the latest local contents are advertised as. -/
def localFormats (s : ClipboardSync) : List ClipFormat :=
  let contents := (s.local'.map (·.contents)).getD .empty
  outboundFormats (filterLocal contents s.prefs).1 s.prefs

/-- Advertises the latest local contents, which supersedes any fetch. -/
def advertiseLocal (s : ClipboardSync) (now : Instant) : Acting :=
  let contents := (s.local'.map (·.contents)).getD .empty
  let (kept, rejected) := filterLocal contents s.prefs
  let s := { s with advertised := kept, pendingLocal := false }.supersedeFetch
  let (s, sent) := s.sendList s.localFormats now
  (s, rejected.map .rejected ++ sent)

def onInitialRequest (s : ClipboardSync) (now : Instant) : Acting :=
  let s := { s with ready := true }
  if s.canSync && s.local'.isSome then s.advertiseLocal now
  else
    { s with
      pendingLocal := s.local'.isSome && s.prefs ≠ ClipboardPrefs.off
      advertised := .empty }.sendList [] now

/-- The reported change is one of the session's own writes. -/
def isOwn (s : ClipboardSync) (changeCount : Int) (contents : ClipboardContents) : Bool :=
  s.ownWrites.contains changeCount || s.unackedWrite = some contents

def onLocalChange (s : ClipboardSync) (changeCount : Int) (contents : ClipboardContents)
    (now : Instant) : Acting :=
  if s.lastLocalChangeCount = some changeCount then (s, [])
  else
    let own := s.isOwn changeCount contents
    let s := { s with lastLocalChangeCount := some changeCount, local' := some ⟨contents, now⟩ }
    if own then (s, [])
    else if s.prefs = .off then (s, [])
    else if !s.canSync then ({ s with pendingLocal := true }, [])
    else s.advertiseLocal now

def onPrefs (s : ClipboardSync) (prefs : ClipboardPrefs) (now : Instant) : Acting :=
  if prefs = s.prefs then (s, [])
  else
    let s := { s with prefs := prefs }
    if !(s.ready && s.focused) then ({ s with pendingLocal := s.local'.isSome }, [])
    else if prefs = .off then { s.supersedeFetch with advertised := .empty }.sendList [] now
    else if s.local'.isSome then s.advertiseLocal now
    else (s, [])

/-- Issues the next queued request, or completes the fetch. -/
def nextFetchStep (s : ClipboardSync) (now : Instant) : Acting :=
  match s.fetch with
  | none => (s, [])
  | some fetch =>
    match fetch.queue with
    | (format, kind) :: queue =>
      ({ s with
          fetch := some { fetch with queue := queue }
          inflight := some { kind := kind, since := now, stale := false } },
        [.requestRemoteData format])
    | [] =>
      let s := { s with fetch := none }
      let localNewer := s.local'.any fun l => fetch.announced < l.at'
      if fetch.items.isEmpty || localNewer then (s, [])
      else
        ({ s with unackedWrite := some ⟨fetch.items⟩ }, [.writePasteboard ⟨fetch.items⟩])

/-- The list repeats the last advertisement shortly after it was sent. -/
def isEcho (s : ClipboardSync) (formats : List ClipFormat) (now : Instant) : Bool :=
  s.lastSent.any fun (kinds, at') => now - at' ≤ echoWindow && kinds = sortedKinds formats

def onRemoteList (s : ClipboardSync) (formats : List ClipFormat) (now : Instant) : Acting :=
  if !s.canSync then (s, [])
  else if s.isEcho formats now then (s, [])
  else
    let s := s.supersedeFetch
    let queue := selectInbound formats s.prefs
    if queue.isEmpty then (s, [])
    else
      let s := { s with fetch := some { queue := queue, items := [], announced := now } }
      -- A superseded request must be answered before the next one goes out.
      if s.inflight.isSome then (s, []) else s.nextFetchStep now

def decodeResponse (images : ImageCodec) (kind : FormatKind) :
    Option Bytes → Except ClipError ClipboardItem
  | none => .error .remoteError
  | some data => decodeInbound images kind data

def pushItem (s : ClipboardSync) (item : ClipboardItem) : ClipboardSync :=
  { s with fetch := s.fetch.map fun f => { f with items := f.items ++ [item] } }

def onRemoteData (images : ImageCodec) (s : ClipboardSync) (data : Option Bytes) (now : Instant) :
    Acting :=
  match s.inflight with
  | none => (s, [])
  | some inflight =>
    let s := { s with inflight := none }
    if inflight.stale then s.nextFetchStep now
    else
      match decodeResponse images inflight.kind data with
      | .ok item => (s.pushItem item).nextFetchStep now
      | .error e =>
        let (s, actions) := s.nextFetchStep now
        (s, .rejected e :: actions)

def onDataRequest (images : ImageCodec) (s : ClipboardSync) (formatId : Nat) : Acting :=
  (s, [.sendData formatId (encodeOutbound images formatId s.advertised s.prefs)])

def onLocalWritten (s : ClipboardSync) (changeCount : Int) : ClipboardSync :=
  let ownWrites := s.ownWrites ++ [changeCount]
  { s with
    unackedWrite := none
    ownWrites := if ownWritesKept < ownWrites.length then ownWrites.tail else ownWrites }

def onTick (s : ClipboardSync) (now : Instant) : ClipboardSync :=
  if s.inflight.any fun i => fetchTimeout ≤ now - i.since then
    { s with inflight := none, fetch := none }
  else s

def handle (images : ImageCodec) (s : ClipboardSync) (now : Instant) : SyncInput → Acting
  | .initialFormatListRequested => s.onInitialRequest now
  | .remoteFormatList formats => s.onRemoteList formats now
  | .remoteData data => s.onRemoteData images data now
  | .remoteDataRequest formatId => s.onDataRequest images formatId
  | .localChanged changeCount contents => s.onLocalChange changeCount contents now
  | .localWritten changeCount => (s.onLocalWritten changeCount, [])
  | .focus focused =>
    let s := { s with focused := focused }
    if focused && s.pendingLocal then s.advertiseLocal now else (s, [])
  | .prefs prefs => s.onPrefs prefs now
  | .tick => (s.onTick now, [])

end ClipboardSync

end Drift.Clipboard
