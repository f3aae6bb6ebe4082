import Oumigo.Foundation.Encoding
import Oumigo.Foundation.Riff
import Oumigo.Router.Shaping

/-!
# What a WAV clip is billed with

`audio_part_seconds` decodes the first bytes of a clip and walks the chunks in them.  The walk
is followed chunk by chunk over a well-formed file (`wavChunks_other`, `wavChunks_fmt`,
`wavChunks_data`).  It stops at an empty chunk, so the clip is billed with its length exactly
when no chunk before the data is empty, or when its length is the ceiling anyway
(`audioPartSeconds_wav_iff`).
-/

namespace Oumigo

open Python Shaping Riff

variable {full post rest : List UInt8} {chunk : WaveChunk} {chunks : List WaveChunk} {wave : Wave}
  {limit pos total rate : Nat}

/-! ## Reading the head of a file -/

theorem drop_append_eq {mid : List UInt8} (here : full.drop pos = mid ++ post) :
    full.drop (pos + mid.length) = post := by
  rw [← List.drop_drop, here, List.drop_left]

theorem slice_take (limit : Nat) {mid : List UInt8} (here : full.drop pos = mid ++ post)
    (inside : pos + mid.length ≤ limit) :
    slice (full.take limit) pos (pos + mid.length) = mid := by
  unfold slice
  rw [List.drop_take, here, Nat.add_sub_cancel_left, List.take_take,
    Nat.min_eq_left (by omega), List.take_left]

theorem le_length_take (limit : Nat) {mid : List UInt8} (here : full.drop pos = mid ++ post)
    (some : mid ≠ []) (inside : pos + mid.length ≤ limit) :
    pos + mid.length ≤ (full.take limit).length := by
  have size := congrArg List.length here
  have positive := List.length_pos_iff.mpr some
  rw [List.length_drop, List.length_append] at size
  rw [List.length_take]
  omega

/-- What the walk reads of a chunk. -/
structure ReadAt (full : List UInt8) (pos : Nat) (name : List UInt8) (size : Nat)
    (body : List UInt8) : Prop where
  here : full.drop pos = name ++ (le32 size ++ body)
  name_length : name.length = 4
  small : size < 2 ^ 32

variable {name body : List UInt8} {size : Nat}

theorem ReadAt.in_head (read : ReadAt full pos name size body) (inside : pos + 8 ≤ limit) :
    pos + 8 ≤ (full.take limit).length ∧
    slice (full.take limit) pos (pos + 4) = name ∧
    fromBytesLittle (slice (full.take limit) (pos + 4) (pos + 8)) = size ∧
    full.drop (pos + 8) = body := by
  have first := slice_take limit read.here (by rw [read.name_length]; omega)
  have second := drop_append_eq read.here
  rw [read.name_length] at first second
  have third := slice_take limit second (by rw [le32_length]; omega)
  have last := drop_append_eq second
  have length := le_length_take limit second (by simp [le32])
    (by rw [le32_length]; omega)
  rw [le32_length] at third last length
  exact ⟨length, first, (congrArg fromBytesLittle third).trans (leNat_le32 read.small), last⟩

theorem readAt_chunk (here : full.drop pos = chunk.bytes ++ post) :
    ReadAt full pos chunk.name chunk.body.length (chunk.body ++ (chunk.padding ++ post)) := by
  refine ⟨?_, chunk.name_length, chunk.body_small⟩
  rw [here]
  simp only [WaveChunk.bytes, List.append_assoc]

/-! ## The walk -/

/-- A chunk that is neither the format nor the data: the walk goes on behind it, unless it is
empty. -/
theorem wavChunks_other (here : full.drop pos = chunk.bytes ++ post) (inside : pos + 8 ≤ limit)
    (other : chunk.name ≠ tag "fmt " ∧ chunk.name ≠ tag "data") :
    wavChunks (full.take limit) total pos rate =
      if chunk.body = [] then none
      else wavChunks (full.take limit) total (pos + chunk.bytes.length) rate := by
  obtain ⟨length, name, size, -⟩ := (readAt_chunk here).in_head inside
  have next : pos + 8 + chunk.body.length + chunk.body.length % 2 = pos + chunk.bytes.length := by
    rw [chunk.bytes_length]
    omega
  conv_lhs => rw [wavChunks]
  have data : chunk.name ≠ ascii "data" := other.2
  have fmt : chunk.name ≠ ascii "fmt " := other.1
  simp only [length, if_true, name, size, data, fmt, if_false, false_and, next,
    List.length_eq_zero_iff]

/-- The format chunk: the walk takes the byte rate along. -/
theorem wavChunks_fmt (here : full.drop pos = chunk.bytes ++ post) (inside : pos + 20 ≤ limit)
    (fmt : chunk.name = tag "fmt ") (long : 12 ≤ chunk.body.length) :
    wavChunks (full.take limit) total pos rate =
      wavChunks (full.take limit) total (pos + chunk.bytes.length)
        (leNat ((chunk.body.drop 8).take 4)) := by
  obtain ⟨length, name, size, body⟩ := (readAt_chunk here).in_head (by omega : pos + 8 ≤ limit)
  have next : pos + 8 + chunk.body.length + chunk.body.length % 2 = pos + chunk.bytes.length := by
    rw [chunk.bytes_length]
    omega
  -- the byte rate stands in the head, too
  have field : full.drop (pos + 8 + 8) =
      (chunk.body.drop 8).take 4 ++ ((chunk.body.drop 12) ++ (chunk.padding ++ post)) := by
    have split := List.take_append_drop 4 (chunk.body.drop 8)
    rw [List.drop_drop] at split
    rw [← List.append_assoc ((chunk.body.drop 8).take 4), split, ← List.drop_drop, body,
      List.drop_append_of_le_length (by omega)]
  have four : ((chunk.body.drop 8).take 4).length = 4 := by
    rw [List.length_take, List.length_drop]
    omega
  have read := slice_take limit field (by omega)
  have within := le_length_take limit field
    (List.length_pos_iff.mp (by omega)) (by omega)
  rw [four] at read within
  have size' : chunk.body.length ≠ 0 := by omega
  have apart : ascii "fmt " ≠ ascii "data" := by decide
  have known : tag "fmt " = ascii "fmt " := rfl
  have reached : pos + 8 + 12 ≤ (full.take limit).length := by omega
  have same : fromBytesLittle (slice (full.take limit) (pos + 8 + 8) (pos + 8 + 12)) =
      leNat ((chunk.body.drop 8).take 4) := congrArg fromBytesLittle read
  conv_lhs => rw [wavChunks]
  rw [fmt] at name
  simp only [length, if_true, name, size, apart, if_false, next, size', known, reached, same,
    and_self]

/-- The data chunk: the walk ends with its length. -/
theorem wavChunks_data (here : full.drop pos = tag "data" ++ (le32 size ++ rest))
    (inside : pos + 8 ≤ limit) (small : size < 2 ^ 32) (known : rate ≠ 0)
    (whole : total = pos + 8 + rest.length) (some_ : rest ≠ []) :
    wavChunks (full.take limit) total pos rate =
      some (((if 0 < size ∧ size < rest.length then size else rest.length : Nat) : Rat) / rate) := by
  have read : ReadAt full pos (tag "data") size rest := ⟨here, rfl, small⟩
  obtain ⟨length, name, size', -⟩ := read.in_head inside
  have follows : ((total : Int) - (pos + 8 : Nat)) = (rest.length : Int) := by omega
  have positive := List.length_pos_iff.mpr some_
  have same : tag "data" = ascii "data" := rfl
  conv_lhs => rw [wavChunks]
  simp only [length, if_true, name, size', same, known, if_false, follows, Nat.cast_lt]
  by_cases declared : 0 < size ∧ size < rest.length
  · simp only [declared, and_self, if_true, Nat.cast_pos, Int.cast_natCast]
  · simp only [declared, if_false, Nat.cast_pos, positive, if_true, Int.cast_natCast]

/-- Past chunks that are not empty. -/
theorem wavChunks_past (here : full.drop pos = chunks.flatMap WaveChunk.bytes ++ post)
    (inside : pos + (chunks.flatMap WaveChunk.bytes).length ≤ limit)
    (others : ∀ chunk ∈ chunks, chunk.name ≠ tag "fmt " ∧ chunk.name ≠ tag "data")
    (filled : ∀ chunk ∈ chunks, chunk.body ≠ []) :
    wavChunks (full.take limit) total pos rate =
      wavChunks (full.take limit) total (pos + (chunks.flatMap WaveChunk.bytes).length) rate := by
  induction chunks generalizing pos with
  | nil => rfl
  | cons chunk chunks ih =>
    rw [List.flatMap_cons, List.append_assoc] at here
    rw [List.flatMap_cons, List.length_append, ← Nat.add_assoc] at inside ⊢
    have size := chunk.bytes_length
    rw [wavChunks_other here (by omega) (others chunk List.mem_cons_self),
      if_neg (filled chunk List.mem_cons_self)]
    exact ih (drop_append_eq here) inside
      (fun other member => others other (List.mem_cons_of_mem _ member))
      (fun other member => filled other (List.mem_cons_of_mem _ member))

/-- At chunks of which one is empty. -/
theorem wavChunks_stops (here : full.drop pos = chunks.flatMap WaveChunk.bytes ++ post)
    (inside : pos + (chunks.flatMap WaveChunk.bytes).length ≤ limit)
    (others : ∀ chunk ∈ chunks, chunk.name ≠ tag "fmt " ∧ chunk.name ≠ tag "data")
    (empty : ∃ chunk ∈ chunks, chunk.body = []) :
    wavChunks (full.take limit) total pos rate = none := by
  induction chunks generalizing pos with
  | nil =>
    obtain ⟨chunk, member, -⟩ := empty
    cases member
  | cons chunk chunks ih =>
    rw [List.flatMap_cons, List.append_assoc] at here
    rw [List.flatMap_cons, List.length_append, ← Nat.add_assoc] at inside
    have size := chunk.bytes_length
    rw [wavChunks_other here (by omega) (others chunk List.mem_cons_self)]
    by_cases first : chunk.body = []
    · rw [if_pos first]
    · rw [if_neg first]
      apply ih (drop_append_eq here) inside
        (fun other member => others other (List.mem_cons_of_mem _ member))
      obtain ⟨other, member, nothing⟩ := empty
      rcases List.mem_cons.mp member with rfl | later
      · exact absurd nothing first
      · exact ⟨other, later, nothing⟩

/-! ## A whole file -/

/-- No chunk before the data is empty. -/
def Filled (wave : Wave) : Prop := ∀ chunk ∈ wave.chunks, chunk.body ≠ []

theorem drop_chunks : wave.bytes.drop 12 = wave.chunks.flatMap WaveChunk.bytes ++ wave.tail := by
  have first : wave.bytes.drop 0 = _ := wave.bytes_eq
  exact drop_append_eq (drop_append_eq (drop_append_eq first))

/-- A file is recognised by its header. -/
theorem wavSeconds_start (inside : wave.front.length + 8 ≤ limit) :
    wavSeconds (wave.bytes.take limit) wave.bytes.length =
      wavChunks (wave.bytes.take limit) wave.bytes.length 12 0 := by
  have size := wave.bytes_length
  have front := wave.front_length
  have first : wave.bytes.drop 0 = _ := wave.bytes_eq
  have riff : (tag "RIFF").length = 4 := rfl
  have named : (tag "WAVE").length = 4 := rfl
  have head := slice_take limit first (by omega)
  have kind := slice_take limit (drop_append_eq (drop_append_eq first)) (by
    rw [riff, le32_length, named]
    omega)
  have long : ¬ (wave.bytes.take limit).length < 12 := by
    rw [List.length_take]
    omega
  unfold wavSeconds
  apply if_neg
  rintro (short | other | other)
  · exact long short
  · exact other head
  · exact other kind

theorem others_lead : ∀ chunk ∈ wave.lead, chunk.name ≠ tag "fmt " ∧ chunk.name ≠ tag "data" :=
  fun chunk member => wave.others chunk (List.mem_append_left _ member)

theorem others_between :
    ∀ chunk ∈ wave.between, chunk.name ≠ tag "fmt " ∧ chunk.name ≠ tag "data" :=
  fun chunk member => wave.others chunk (List.mem_append_right _ member)

/-- The bytes from the first chunk on, and where the later ones start. -/
theorem chunks_layout (wave : Wave) :
    wave.bytes.drop 12 = wave.lead.flatMap WaveChunk.bytes ++ (wave.fmt.bytes ++
      (wave.between.flatMap WaveChunk.bytes ++ wave.tail)) ∧
    wave.front.length = 12 + (wave.lead.flatMap WaveChunk.bytes).length + wave.fmt.bytes.length +
      (wave.between.flatMap WaveChunk.bytes).length := by
  rw [drop_chunks, wave.front_length, Wave.chunks]
  simp only [List.flatMap_append, List.flatMap_cons, List.append_assoc, List.length_append,
    true_and]
  omega

/-- The walk when nothing before the format is empty. -/
theorem wavChunks_format (inside : wave.front.length + 8 ≤ limit)
    (filled : ∀ chunk ∈ wave.lead, chunk.body ≠ []) :
    wavChunks (wave.bytes.take limit) total 12 0 =
      wavChunks (wave.bytes.take limit) total
        (12 + (wave.lead.flatMap WaveChunk.bytes).length + wave.fmt.bytes.length) wave.byteRate := by
  obtain ⟨layout, length⟩ := chunks_layout wave
  have size := wave.fmt.bytes_length
  have long := wave.fmt_length
  rw [wavChunks_past layout (by omega) others_lead filled,
    wavChunks_fmt (drop_append_eq layout) (by omega) wave.fmt_name wave.fmt_length]
  rfl

theorem wavSeconds_filled (inside : wave.front.length + 8 ≤ limit) (filled : Filled wave) :
    wavSeconds (wave.bytes.take limit) wave.bytes.length = some wave.seconds := by
  obtain ⟨layout, length⟩ := chunks_layout wave
  have behind := drop_append_eq (drop_append_eq layout)
  have lead : ∀ chunk ∈ wave.lead, chunk.body ≠ [] := fun chunk member =>
    filled chunk (List.mem_append_left _ member)
  have between : ∀ chunk ∈ wave.between, chunk.body ≠ [] := fun chunk member =>
    filled chunk (List.mem_append_right _ (List.mem_cons_of_mem _ member))
  have known : wave.byteRate ≠ 0 := Nat.pos_iff_ne_zero.mp wave.rate_pos
  rw [wavSeconds_start inside, wavChunks_format inside lead,
    wavChunks_past behind (by omega) others_between between,
    wavChunks_data (drop_append_eq behind) (by omega) wave.declared_small known
      (by rw [wave.bytes_length]; omega) wave.rest_ne_nil]
  rfl

theorem wavSeconds_empty (inside : wave.front.length + 8 ≤ limit) (empty : ¬ Filled wave) :
    wavSeconds (wave.bytes.take limit) wave.bytes.length = none := by
  obtain ⟨layout, length⟩ := chunks_layout wave
  rw [wavSeconds_start inside]
  by_cases lead : ∀ chunk ∈ wave.lead, chunk.body ≠ []
  · rw [wavChunks_format inside lead]
    apply wavChunks_stops (drop_append_eq (drop_append_eq layout)) (by omega) others_between
    by_contra filled
    apply empty
    intro chunk member nothing
    rcases List.mem_append.mp member with before | member
    · exact lead chunk before nothing
    · rcases List.mem_cons.mp member with rfl | later
      · have long := wave.fmt_length
        rw [nothing] at long
        cases long
      · exact filled ⟨chunk, later, nothing⟩
  · apply wavChunks_stops layout (by omega) others_lead
    push Not at lead
    exact lead

/-! ## A clip in a part -/

/-- A space or a line break. -/
def isBreak (c : Char) : Bool := c = ' ' || c = Char.ofNat 10 || c = Char.ofNat 13

/-- A text that is the base64 encoding of bytes once its spaces and line breaks are gone. -/
def Encodes (text : String) (bytes : List UInt8) : Prop :=
  (text.toList.filter fun c => !isBreak c) = b64encode bytes

/-- A part that carries a text, in one of the spellings that clients use. -/
inductive CarriesClip (part : Fields) (text : String) : Prop
  | inputAudio {blob : Fields} : Fields.get? part "type" = some (.str "input_audio") →
    Fields.get? part "input_audio" = some (.obj blob) →
    Fields.get? blob "data" = some (.str text) → CarriesClip part text
  | audioUrl {media : String} : Fields.get? part "type" = some (.str "audio_url") →
    (Fields.get? part "audio_url" = some (.str ("data:" ++ media ++ "," ++ text)) ∨
      ∃ url, Fields.get? part "audio_url" = some (.obj url) ∧
        Fields.get? url "url" = some (.str ("data:" ++ media ++ "," ++ text))) →
    ',' ∉ media.toList → CarriesClip part text

variable {text data : String} {bytes : List UInt8} {part : Fields}

theorem Encodes.stripWs (encodes : Encodes text bytes) :
    (Shaping.stripWs text).toList = b64encode bytes := by
  unfold Shaping.stripWs
  split
  · rw [join_split, ← encodes]
    apply List.filter_congr
    intro c member
    cases stop : isBreak c with
    | true =>
      have space : isSpace c = true := by
        simp only [isBreak, Bool.or_eq_true, decide_eq_true_eq] at stop
        rcases stop with (rfl | rfl) | rfl
        · rfl
        · rfl
        · rfl
      rw [space]
    | false =>
      have kept : c ∈ b64encode bytes := by
        rw [← encodes]
        exact List.mem_filter.mpr ⟨member, by rw [stop]; rfl⟩
      rw [(b64encode_chars kept).1]
  · next plain =>
    rw [← encodes, List.filter_eq_self.mpr]
    intro c member
    cases stop : isBreak c with
    | true => exact absurd (List.any_eq_true.mpr ⟨c, member, stop⟩) plain
    | false => rfl

theorem b64ByteLen_eq (encodes : data.toList = b64encode bytes) :
    b64ByteLen data = bytes.length := by
  have size := b64encode_size bytes
  have groups := b64encode_length bytes
  unfold b64ByteLen
  rw [encodes]
  simp only
  split
  · have none : (b64encode bytes).length = 0 := by omega
    cases bytes with
    | nil => rfl
    | cons b more => exact absurd (List.length_eq_zero_iff.mp none) b64encode_ne_nil
  · omega

/-- The head is what the first characters stand for. -/
theorem b64Head_eq (encodes : data.toList = b64encode bytes) :
    b64Head data = bytes.take 576 := by
  have size := b64encode_size bytes
  have groups := b64encode_length bytes
  have whole : min (b64encode bytes).length 768 / 4 * 4 =
      4 * (min (b64encode bytes).length 768 / 4) := Nat.mul_comm _ _
  have ascii : isAscii (String.ofList
      ((b64encode bytes).take (min (b64encode bytes).length 768 / 4 * 4))) = true := by
    unfold isAscii
    rw [String.toList_ofList, List.all_eq_true]
    intro c member
    exact decide_eq_true (b64encode_chars (List.mem_of_mem_take member)).2
  unfold b64Head
  rw [encodes, headerB64Chars]
  simp only [b64decode, ascii, if_true, String.toList_ofList]
  rw [whole, b64encode_take, a2b_b64encode, Option.getD_some]
  rcases le_or_gt 768 (b64encode bytes).length with long | short
  · rw [Nat.min_eq_right long]
  · rw [Nat.min_eq_left short.le, List.take_of_length_le (by omega),
      List.take_of_length_le (by omega)]

/-- A data URL is cut at its first comma. -/
theorem dataUrl_cut (text : String) {media : String} (comma : ',' ∉ media.toList) :
    (startsWith "data:" ("data:" ++ media ++ "," ++ text) &&
      ',' ∈ ("data:" ++ media ++ "," ++ text).toList) = true ∧
    (partition ("data:" ++ media ++ "," ++ text) ',').2 = text := by
  have apart : ',' ∉ ("data:" ++ media).toList := by
    rw [String.toList_append]
    intro member
    rcases List.mem_append.mp member with head | tail
    · exact absurd head (by decide)
    · exact comma tail
  have starts : startsWith "data:" ("data:" ++ media ++ "," ++ text) = true := by
    rw [startsWith, List.isPrefixOf_iff_prefix]
    simp [String.toList_append, List.append_assoc]
  refine ⟨?_, congrArg Prod.snd (partition_of_not_mem apart)⟩
  rw [starts]
  simp [String.toList_append]

theorem partB64_eq (carries : CarriesClip part text) : partB64 part = some text := by
  cases carries with
  | inputAudio type blob data => simp only [partB64, type, blob, data]
  | audioUrl type url comma =>
    obtain ⟨data, cut⟩ := dataUrl_cut text comma
    rcases url with url | ⟨fields, url, inner⟩
    · simp only [partB64, type, url, data, if_true, cut]
    · simp only [partB64, type, url, inner, data, if_true, cut]

/-- The clip is measured as the file it is. -/
theorem audioPartSeconds_eq (carries : CarriesClip part text) (encodes : Encodes text bytes)
    (some_ : bytes ≠ []) :
    audioPartSeconds part =
      match wavSeconds (bytes.take 576) bytes.length with
      | none => itemCeilingS
      | some measured => if measured ≤ 0 then itemCeilingS else min measured itemCeilingS := by
  have filled : text ≠ "" := by
    rintro rfl
    obtain ⟨b, more, rfl⟩ := List.exists_cons_of_ne_nil some_
    exact b64encode_ne_nil encodes.symm
  have stripped := encodes.stripWs
  cases measured : wavSeconds (bytes.take 576) bytes.length <;>
    simp [audioPartSeconds, partB64_eq carries, filled, b64Head_eq stripped,
      b64ByteLen_eq stripped, measured]

theorem seconds_pos (wave : Wave) : 0 < wave.seconds := by
  have length : (0 : Rat) < wave.dataLength := by exact_mod_cast wave.dataLength_pos
  have rate : (0 : Rat) < wave.byteRate := by exact_mod_cast wave.rate_pos
  exact div_pos length rate

theorem wave_ne_nil (wave : Wave) : wave.bytes ≠ [] := by
  rw [wave.bytes_eq]
  exact List.append_ne_nil_of_left_ne_nil (by decide) _

/-- Without an empty chunk before the data a clip is billed with its length. -/
theorem audioPartSeconds_filled (inside : wave.front.length + 8 ≤ 576)
    (carries : CarriesClip part text) (encodes : Encodes text wave.bytes)
    (filled : Filled wave) : audioPartSeconds part = min wave.seconds 30 := by
  have positive : ¬ wave.seconds ≤ 0 := not_le.mpr (seconds_pos wave)
  rw [audioPartSeconds_eq carries encodes (wave_ne_nil wave), wavSeconds_filled inside filled]
  simp only [positive, if_false, itemCeilingS]

/-- With one it is billed with the ceiling, like a container that cannot be read. -/
theorem audioPartSeconds_empty (inside : wave.front.length + 8 ≤ 576)
    (carries : CarriesClip part text) (encodes : Encodes text wave.bytes)
    (empty : ¬ Filled wave) : audioPartSeconds part = 30 := by
  rw [audioPartSeconds_eq carries encodes (wave_ne_nil wave), wavSeconds_empty inside empty]
  rfl

/-- **What a WAV clip is billed with**: its length up to the ceiling, exactly when no chunk
before the data is empty or the clip is that long anyway. -/
theorem audioPartSeconds_wav_iff (wave : Wave) (part : Fields) (text : String)
    (inside : wave.front.length + 8 ≤ 576) (carries : CarriesClip part text)
    (encodes : Encodes text wave.bytes) :
    audioPartSeconds part = min wave.seconds 30 ↔
      (∀ chunk ∈ wave.chunks, chunk.body ≠ []) ∨ 30 ≤ wave.seconds := by
  constructor
  · intro billed
    by_cases filled : Filled wave
    · exact Or.inl filled
    · rw [audioPartSeconds_empty inside carries encodes filled] at billed
      exact Or.inr (billed.le.trans (min_le_left _ _))
  · rintro (filled | long)
    · exact audioPartSeconds_filled inside carries encodes filled
    · by_cases filled : Filled wave
      · exact audioPartSeconds_filled inside carries encodes filled
      · rw [audioPartSeconds_empty inside carries encodes filled, min_eq_right long]

/-- A clip of one byte, at one byte a second, with the given chunks between the format and the
data. -/
def tinyWave (between : List WaveChunk) (others : ∀ chunk ∈ between,
    chunk.name ≠ tag "fmt " ∧ chunk.name ≠ tag "data") : Wave where
  size := 0
  lead := []
  fmt := ⟨tag "fmt ", [1, 0, 1, 0, 1, 0, 0, 0, 1, 0, 0, 0, 1, 0, 8, 0], 0, rfl, by decide⟩
  between := between
  declared := 0
  rest := [0]
  fmt_name := rfl
  fmt_length := by decide
  rate_pos := by decide
  others := others
  declared_small := by decide
  rest_ne_nil := by decide

/-- That clip without further chunks, and with a `LIST` chunk that has nothing in it. -/
def plainWave : Wave := tinyWave [] (by simp)

def emptyList : WaveChunk := ⟨tag "LIST", [], 0, rfl, by decide⟩

def listWave : Wave := tinyWave [emptyList] (by decide)

/-- The part that carries bytes as `input_audio`. -/
def clipPart (bytes : List UInt8) : Fields :=
  [("type", .str "input_audio"),
    ("input_audio", .obj [("data", .str (String.ofList (b64encode bytes)))])]

theorem clipPart_carries (bytes : List UInt8) :
    CarriesClip (clipPart bytes) (String.ofList (b64encode bytes)) :=
  .inputAudio rfl rfl rfl

theorem b64encode_encodes (bytes : List UInt8) :
    Encodes (String.ofList (b64encode bytes)) bytes := by
  unfold Encodes
  rw [String.toList_ofList, List.filter_eq_self]
  intro c member
  have visible := (b64encode_chars member).1
  cases stop : isBreak c with
  | false => rfl
  | true =>
    simp only [isBreak, Bool.or_eq_true, decide_eq_true_eq] at stop
    rcases stop with (rfl | rfl) | rfl
    · cases visible
    · cases visible
    · cases visible

theorem audioPartSeconds_wav_plain :
    audioPartSeconds (clipPart plainWave.bytes) = 1 ∧
    (audioPartSeconds (clipPart plainWave.bytes) = min plainWave.seconds 30 ↔
      (∀ chunk ∈ plainWave.chunks, chunk.body ≠ []) ∨ 30 ≤ plainWave.seconds) := by
  have billed := audioPartSeconds_wav_iff plainWave _ _ (by decide) (clipPart_carries _)
    (b64encode_encodes _)
  have second : plainWave.seconds = 1 := by decide +kernel
  have filled : ∀ chunk ∈ plainWave.chunks, chunk.body ≠ [] := by decide
  refine ⟨?_, billed⟩
  rw [billed.mpr (Or.inl filled), second]
  norm_num

/-- **A clip of one second that is billed with thirty**: an empty `LIST` chunk stands before
its data. -/
theorem empty_chunk_billed_full :
    listWave.front.length + 8 ≤ 576 ∧ listWave.seconds = 1 ∧
    audioPartSeconds (clipPart listWave.bytes) = 30 ∧
    ¬ ∀ (wave : Wave) (part : Fields) (text : String), wave.front.length + 8 ≤ 576 →
      CarriesClip part text → Encodes text wave.bytes →
      audioPartSeconds part = min wave.seconds 30 := by
  have inside : listWave.front.length + 8 ≤ 576 := by decide
  have second : listWave.seconds = 1 := by decide +kernel
  have empty : ¬ Filled listWave := by
    intro filled
    exact filled emptyList (by simp [Wave.chunks, listWave, tinyWave]) rfl
  have billed := audioPartSeconds_empty inside (clipPart_carries _) (b64encode_encodes _) empty
  refine ⟨inside, second, billed, fun claim => ?_⟩
  have length := claim listWave _ _ inside (clipPart_carries _) (b64encode_encodes _)
  rw [billed, second] at length
  norm_num at length

end Oumigo
