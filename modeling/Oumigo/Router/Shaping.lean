import Oumigo.Foundation.Base64
import Oumigo.Foundation.Json
import Oumigo.Foundation.Text

/-!
# The caps on a chat request

`service/manager/router/shaping.py`: `cap_audio` drops the audio parts that come after the
budget is spent and notes it in the first message that lost one; `clamp_output_tokens` bounds
the reply.  The source changes the payload in place; here each function returns the payload
it leaves.  Durations are added and divided exactly.
-/

namespace Oumigo

namespace Shaping

open Python

/-- `ITEM_CEILING_S`. -/
def itemCeilingS : Rat := 30

/-- `_HEADER_B64_CHARS`. -/
def headerB64Chars : Nat := 768

/-! ## How long an audio part is -/

/-- `_strip_ws`. -/
def stripWs (data : String) : String :=
  if data.toList.any fun c => c = ' ' || c = Char.ofNat 10 || c = Char.ofNat 13 then
    String.join (split data)
  else data

/-- `_b64_byte_len`. -/
def b64ByteLen (data : String) : Nat :=
  let n := data.toList.length
  if n < 4 then 0 else n / 4 * 3 - (data.toList.drop (n - 2)).count '='

/-- `_b64_head`. -/
def b64Head (data : String) : List UInt8 :=
  let chars := min data.toList.length headerB64Chars / 4 * 4
  (b64decode (String.ofList (data.toList.take chars))).getD []

/-- `head[start:stop]`. -/
def slice (head : List UInt8) (start stop : Nat) : List UInt8 :=
  (head.drop start).take (stop - start)

/-- `int.from_bytes(bytes, "little")`. -/
def fromBytesLittle (bytes : List UInt8) : Nat := bytes.foldr (fun b n => b.toNat + 256 * n) 0

/-- The bytes of an ASCII text. -/
def ascii (text : String) : List UInt8 := text.toList.map fun c => UInt8.ofNat c.toNat

/-- The loop of `_wav_seconds` over the chunks. -/
def wavChunks (head : List UInt8) (totalBytes pos byteRate : Nat) : Option Rat :=
  if pos + 8 ≤ head.length then
    let chunkId := slice head pos (pos + 4)
    let chunkSize := fromBytesLittle (slice head (pos + 4) (pos + 8))
    let body := pos + 8
    if chunkId = ascii "data" then
      if byteRate = 0 then none
      else
        let dataBytes : Int := totalBytes - body
        let dataBytes := if 0 < chunkSize ∧ chunkSize < dataBytes then (chunkSize : Int)
          else dataBytes
        some (if 0 < dataBytes then dataBytes / byteRate else 0)
    else
      let byteRate :=
        if chunkId = ascii "fmt " ∧ body + 12 ≤ head.length then
          fromBytesLittle (slice head (body + 8) (body + 12))
        else byteRate
      if chunkSize = 0 then none
      -- chunks are word-aligned
      else wavChunks head totalBytes (body + chunkSize + chunkSize % 2) byteRate
  else none
termination_by head.length - pos

/-- `_wav_seconds`. -/
def wavSeconds (head : List UInt8) (totalBytes : Nat) : Option Rat :=
  if head.length < 12 ∨ slice head 0 4 ≠ ascii "RIFF" ∨ slice head 8 12 ≠ ascii "WAVE" then none
  else wavChunks head totalBytes 12 0

/-- `_part_b64`. -/
def partB64 (part : Fields) : Option String :=
  match Fields.get? part "type" with
  | some (.str "input_audio") =>
      match Fields.get? part "input_audio" with
      | some (.obj blob) =>
          match Fields.get? blob "data" with
          | some (.str data) => some data
          | _ => none
      | _ => none
  | some (.str "audio_url") =>
      let url := match Fields.get? part "audio_url" with
        | some (.obj url) => Fields.get? url "url"
        | url => url
      match url with
      -- only a data: URL can be measured
      | some (.str url) =>
          if startsWith "data:" url && ',' ∈ url.toList then some (partition url ',').2 else none
      | _ => none
  | _ => none

/-- `_is_audio_part`. -/
def isAudioPart : Json → Bool
  | .obj part =>
      match Fields.get? part "type" with
      | some (.str kind) => kind = "input_audio" || kind = "audio_url"
      | _ => false
  | _ => false

/-- `audio_part_seconds`. -/
def audioPartSeconds (part : Fields) : Rat :=
  match partB64 part with
  | none => itemCeilingS
  | some data =>
      if data = "" then itemCeilingS
      else
        let data := stripWs data
        match wavSeconds (b64Head data) (b64ByteLen data) with
        | none => itemCeilingS
        | some measured => if measured ≤ 0 then itemCeilingS else min measured itemCeilingS

/-! ## The audio cap -/

/-- `AudioShaping`. -/
structure AudioShaping where
  submittedS : Rat
  keptS : Rat
  totalItems : Nat
  droppedItems : Nat
  limitS : Option Rat

/-- `AudioShaping.trimmed`. -/
def AudioShaping.trimmed (shaping : AudioShaping) : Bool := 0 < shaping.droppedItems

/-- The variables of `cap_audio` that run over all messages. -/
structure AudioCount where
  seconds : Rat := 0
  items : Nat := 0
  dropped : Nat := 0
  keptS : Rat := 0
  budgetSpent : Bool := false

/-- Whether a part of that length goes. -/
def AudioCount.exceeds (count : AudioCount) (limitS : Option Rat) (span : Rat) : Bool :=
  match limitS with
  | none => false
  | some limit => count.budgetSpent || limit < count.keptS + span

/-- The seconds of an audio part. -/
def spanOf : Json → Rat
  | .obj part => audioPartSeconds part
  | _ => itemCeilingS

/-- The loop of `cap_audio` over the parts of a message: the parts kept, and how many went. -/
def capParts (limitS : Option Rat) (count : AudioCount) :
    List Json → AudioCount × List Json × Nat
  | [] => (count, [], 0)
  | part :: rest =>
      if isAudioPart part then
        let span := spanOf part
        let seen := { count with items := count.items + 1, seconds := count.seconds + span }
        if count.exceeds limitS span then
          let (count, kept, lost) := capParts limitS
            { seen with budgetSpent := true, dropped := count.dropped + 1 } rest
          (count, kept, lost + 1)
        else
          let (count, kept, lost) := capParts limitS
            { seen with keptS := count.keptS + span } rest
          (count, part :: kept, lost)
      else
        let (count, kept, lost) := capParts limitS count rest
        (count, part :: kept, lost)

/-- `cap_audio` at a message: what it becomes, and whether it lost parts. -/
def capMessage (limitS : Option Rat) (count : AudioCount) (message : Json) :
    AudioCount × Json × Bool :=
  match message with
  | .obj fields =>
      match Fields.get? fields "content" with
      | some (.arr parts) =>
          let (count, kept, lost) := capParts limitS count parts
          if lost = 0 then (count, message, false)
          else (count, .obj (Fields.set fields "content" (.arr kept)), true)
      | _ => (count, message, false)
  | _ => (count, message, false)

/-- The loop of `cap_audio`: the messages it leaves, and where the note goes. -/
def capMessages (limitS : Option Rat) (count : AudioCount) :
    List Json → AudioCount × List Json × Option Nat
  | [] => (count, [], none)
  | message :: rest =>
      let (count, message, lost) := capMessage limitS count message
      let (count, rest, target) := capMessages limitS count rest
      (count, message :: rest, if lost then some 0 else target.map (· + 1))

/-- `f"{q:.0f}"`. -/
def whole (q : Rat) : String := toString (roundHalfEven q)

/-- `_note`. -/
def note (keptS : Rat) (dropped total : Nat) (limitS : Rat) : Json :=
  .obj [("type", .str "text"), ("text", .str
    ("[OumiGo] This fleet processes at most " ++ whole (limitS / 60) ++ " minutes of audio " ++
      "per request. " ++ toString dropped ++ " of " ++ toString total ++
      " audio clips were removed before the model saw them; only the first " ++
      fixed 1 (keptS / 60) ++ " minutes were processed. " ++
      "Say so in your reply, and tell the user to send the rest in a new request."))]

/-- `note_target["content"] = [note, *note_target["content"]]`. -/
def prependPart (part : Json) : Json → Json
  | .obj fields =>
      match Fields.get? fields "content" with
      | some (.arr parts) => .obj (Fields.set fields "content" (.arr (part :: parts)))
      | _ => .obj fields
  | message => message

/-- `cap_audio`. -/
def capAudio (payload : Fields) (limitS : Option Rat) : AudioShaping × Fields :=
  match Fields.get? payload "messages" with
  | some (.arr messages) =>
      let (count, messages, target) := capMessages limitS {} messages
      let shaping : AudioShaping :=
        ⟨count.seconds, count.keptS, count.items, count.dropped, limitS⟩
      match target with
      | none => (shaping, payload)
      | some i =>
          let text := note count.keptS count.dropped count.items (limitS.getD 0)
          (shaping, Fields.set payload "messages" (.arr (messages.modify i (prependPart text))))
  | _ => (⟨0, 0, 0, 0, limitS⟩, payload)

/-- `shaping_headers`. -/
def shapingHeaders (shaping : AudioShaping) : List (String × String) :=
  if !shaping.trimmed then []
  else
    [("x-oumigo-audio-trimmed", "true"),
      ("x-oumigo-audio-limit-seconds", whole (shaping.limitS.getD 0)),
      ("x-oumigo-audio-submitted-seconds", fixed 1 shaping.submittedS),
      ("x-oumigo-audio-processed-seconds", fixed 1 shaping.keptS),
      ("x-oumigo-audio-clips-dropped",
        toString shaping.droppedItems ++ "/" ++ toString shaping.totalItems)]

/-! ## The output clamp -/

/-- What `clamp_output_tokens` bounds a field to. -/
def cappedTokens (ceiling : Nat) (requested : Option Json) : Int :=
  match requested.bind Json.asInt with
  | some n => if 0 < n then min n ceiling else ceiling
  | none => ceiling

/-- The loop of `clamp_output_tokens` at one field. -/
def clampField (ceiling : Nat) (field : String) (payload : Fields) : Fields × Bool :=
  let requested := Fields.get? payload field
  let capped := cappedTokens ceiling requested
  if (requested.map (Json.eqInt capped)).getD false then (payload, false)
  else (Fields.set payload field (.int capped), true)

/-- `clamp_output_tokens`: the payload, and whether it was changed. -/
def clampOutputTokens (payload : Fields) (ceiling : Option Nat) : Fields × Bool :=
  match ceiling with
  | none | some 0 => (payload, false)
  | some ceiling =>
      let (payload, changed) := clampField ceiling "max_tokens" payload
      -- the newer spelling only when the client used it
      if (Fields.get? payload "max_completion_tokens").isNone then (payload, changed)
      else
        let (payload, changed') := clampField ceiling "max_completion_tokens" payload
        (payload, changed || changed')

end Shaping

end Oumigo
