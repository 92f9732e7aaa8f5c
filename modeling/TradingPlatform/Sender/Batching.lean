import TradingPlatform.Sender.Packet
import TradingPlatform.Library.Framing

/-!
# `Sender.Batching` — the text packets of the optimized sender

`flush_packets` encodes its packets as text and sends several of them in a datagram, joined by newlines, as long as
they fit 60000 bytes. A packet that fits no datagram goes out in chunks, each with a `CHUNK|index|count|` header.
The JSON texts come from a third-party serializer, which `ToJson` stands for; the clock is read once for each packet.

What a receiver of these datagrams gets is `reassemble`; it gets the packets back (`batched_framing_roundTrip`).
-/

namespace TradingPlatform
namespace Sender

open Rust Framing

namespace Batching

def maxUdpPacketSize : Nat := 65507

def chunkSize : Nat := 60000

/-- Leave room for headers. -/
def maxBatchSize : Nat := 60000

def newline : UInt8 := 0x0A

def pipe : UInt8 := 0x7C

/-! ## Packets as text -/

inductive UdpPacket where
  | trade (trade : TradeData)
  | orderBook (orderbook : OrderBookData)
  | stats (exchange : String) (trades orderbooks : Nat)
  | exchangeData (exchange assetType : String) (trades orderbooks : Nat)
  | connectionStatus (exchange : String) (connected disconnected reconnectCount total : Nat)
  | exchangeDataWithStatus (exchange assetType : String)
      (trades orderbooks connected disconnected reconnectCount : Nat)

/-- `serde_json::to_string` -/
structure ToJson where
  trade     : TradeData → Option String
  orderbook : OrderBookData → Option String

/-- The text of a packet at `now`, in seconds; a packet whose JSON fails has none. -/
def encode (json : ToJson) (now : Int) : UdpPacket → Option String
  | .trade trade         => (json.trade trade).map ("TRADE|" ++ ·)
  | .orderBook orderbook => (json.orderbook orderbook).map ("ORDERBOOK|" ++ ·)
  | .stats exchange trades orderbooks => some ("STATS|" ++ s!"{exchange}|{trades}|{orderbooks}|{now}")
  | .exchangeData exchange assetType trades orderbooks =>
    some ("EXCHANGE|" ++ s!"{exchange}|{assetType}|{trades}|{orderbooks}|{now}")
  | .connectionStatus exchange connected disconnected reconnectCount total =>
    some ("CONN|" ++ s!"{exchange}|{connected}|{disconnected}|{reconnectCount}|{total}")
  | .exchangeDataWithStatus exchange assetType trades orderbooks connected disconnected reconnectCount =>
    some ("EXCHANGE|" ++
      s!"{exchange}|{assetType}|{trades}|{orderbooks}|{connected}|{disconnected}|{reconnectCount}|{now}")

/-- The bytes of the packets that have a text, each with the clock when it is encoded. -/
def encodings (json : ToJson) (packets : List (UdpPacket × Int)) : List (List UInt8) :=
  packets.filterMap fun (packet, now) => (encode json now packet).map utf8Bytes

/-! ## Datagrams -/

/-- `combined_buffer` with the count of its bytes. -/
structure Batch where
  combinedBuffer   : List UInt8
  currentBatchSize : Nat
  size_eq          : currentBatchSize = combinedBuffer.length

namespace Batch

def empty : Batch := { combinedBuffer := [], currentBatchSize := 0, size_eq := rfl }

/-- Add a packet, with a newline separator unless it is the first. -/
def push (batch : Batch) (data : List UInt8) : Batch :=
  if h : batch.currentBatchSize > 0 then
    { combinedBuffer   := batch.combinedBuffer ++ newline :: data
      currentBatchSize := batch.currentBatchSize + 1 + data.length
      size_eq          := by rw [batch.size_eq, List.length_append, List.length_cons]; omega }
  else
    { combinedBuffer   := batch.combinedBuffer ++ data
      currentBatchSize := batch.currentBatchSize + data.length
      size_eq          := by rw [batch.size_eq, List.length_append] }

/-- The datagram a flush of the batch sends. -/
def datagrams (batch : Batch) : List (List UInt8) :=
  if batch.currentBatchSize > 0 then [batch.combinedBuffer] else []

end Batch

def chunkHeader (index totalChunks : Nat) : List UInt8 :=
  utf8Bytes s!"CHUNK|{index}|{totalChunks}|"

def chunkDatagrams (data : List UInt8) : List (List UInt8) :=
  ((chunks chunkSize data).zipIdx 1).map fun (chunk, index) =>
    chunkHeader index (chunks chunkSize data).length ++ chunk

/-- One packet: what it sends, and the batch it leaves. -/
def sendPacket (batch : Batch) (data : List UInt8) : Batch × List (List UInt8) :=
  if data.length > maxUdpPacketSize then (.empty, batch.datagrams ++ chunkDatagrams data)
  else if batch.currentBatchSize + data.length + 1 > maxBatchSize then (Batch.empty.push data, batch.datagrams)
  else (batch.push data, [])

/-- The datagrams of a batch and the packets that come after it. -/
def flushFrom (batch : Batch) (datas : List (List UInt8)) : List (List UInt8) :=
  (Machine.run sendPacket batch datas).2 ++ (Machine.run sendPacket batch datas).1.datagrams

/-- What `send_to` is given, datagram by datagram. -/
def flushPackets (json : ToJson) (packets : List (UdpPacket × Int)) : List (List UInt8) :=
  flushFrom .empty (encodings json packets)

/-! ## The receiver -/

/-- A decimal number up to a pipe, and what follows the pipe. -/
def readNumber (bytes : List UInt8) : Nat × List UInt8 :=
  (Nat.ofDigitChars 10 ((bytes.takeWhile (· ≠ pipe)).map fun b => Char.ofNat b.toNat) 0,
    (bytes.dropWhile (· ≠ pipe)).drop 1)

/-- Index, count and payload of a chunk datagram. -/
def readChunk (datagram : List UInt8) : Option (Nat × Nat × List UInt8) :=
  if utf8Bytes "CHUNK|" <+: datagram then
    let (index, rest) := readNumber (datagram.drop (utf8Bytes "CHUNK|").length)
    let (count, payload) := readNumber rest
    some (index, count, payload)
  else none

/-- Ordinary datagrams split at newlines, each run of chunk datagrams put together by index. -/
def reassemble (datagrams : List (List UInt8)) : List (List UInt8) :=
  (Machine.run (receive newline readChunk) [] datagrams).2

/-! ## Headers -/

theorem digit_le {n : Nat} {c : Char} (h : c ∈ Nat.toDigits 10 n) : c.toNat ≤ 57 :=
  (Char.isDigit_iff_toNat.mp (Nat.isDigit_of_mem_toDigits (by decide) (by decide) h)).2

/-- A number in text, a byte for each digit. -/
theorem utf8Bytes_toString (n : Nat) :
    utf8Bytes (toString n) = (Nat.toDigits 10 n).map fun c => UInt8.ofNat c.toNat := by
  rw [utf8Bytes, Nat.toString_eq_repr, Nat.toList_repr, List.map_eq_flatMap]
  refine List.flatMap_congr fun c hc => ?_
  have hle := digit_le hc
  exact utf8EncodeChar_ascii (by omega)

theorem digit_toNat {n : Nat} {c : Char} (h : c ∈ Nat.toDigits 10 n) : (UInt8.ofNat c.toNat).toNat = c.toNat := by
  have hle := digit_le h
  rw [UInt8.toNat_ofNat']
  omega

theorem digit_ne_pipe {n : Nat} {c : Char} (h : c ∈ Nat.toDigits 10 n) : UInt8.ofNat c.toNat ≠ pipe := by
  intro heq
  have hbyte := digit_toNat h
  rw [heq] at hbyte
  have hle := digit_le h
  have hpipe : pipe.toNat = 124 := rfl
  omega

/-- **A number is read back**, whatever follows its pipe. -/
theorem readNumber_toString (n : Nat) (rest : List UInt8) :
    readNumber (utf8Bytes (toString n) ++ pipe :: rest) = (n, rest) := by
  have hdigits : ∀ b ∈ utf8Bytes (toString n), decide (b ≠ pipe) = true := by
    rw [utf8Bytes_toString]
    intro b hb
    obtain ⟨c, hc, rfl⟩ := List.mem_map.mp hb
    exact decide_eq_true (digit_ne_pipe hc)
  have htake : (pipe :: rest).takeWhile (· ≠ pipe) = [] := List.takeWhile_cons_of_neg (by decide)
  have hdrop : (pipe :: rest).dropWhile (· ≠ pipe) = pipe :: rest := List.dropWhile_cons_of_neg (by decide)
  have hchars : (utf8Bytes (toString n)).map (fun b => Char.ofNat b.toNat) = Nat.toDigits 10 n := by
    rw [utf8Bytes_toString, List.map_map]
    refine (List.map_congr_left fun c hc => ?_).trans (List.map_id _)
    show Char.ofNat (UInt8.ofNat c.toNat).toNat = c
    rw [digit_toNat hc, Char.ofNat_toNat]
  unfold readNumber
  rw [List.takeWhile_append_of_pos hdigits, List.dropWhile_append_of_pos hdigits, htake, hdrop, List.append_nil,
    hchars, Nat.ofDigitChars_ten_toDigits]
  rfl

theorem chunkHeader_eq (index totalChunks : Nat) :
    chunkHeader index totalChunks = utf8Bytes "CHUNK|" ++
      (utf8Bytes (toString index) ++ pipe :: (utf8Bytes (toString totalChunks) ++ [pipe])) := by
  have hpipe : utf8Bytes "|" = [pipe] := by decide +kernel
  show utf8Bytes ("CHUNK|" ++ toString index ++ "|" ++ toString totalChunks ++ "|") = _
  simp only [utf8Bytes_append, hpipe, List.append_assoc, List.cons_append, List.nil_append]

/-- **A chunk datagram** is read as what was put into it. -/
theorem readChunk_header (index totalChunks : Nat) (payload : List UInt8) :
    readChunk (chunkHeader index totalChunks ++ payload) = some (index, totalChunks, payload) := by
  rw [chunkHeader_eq]
  simp only [List.append_assoc, List.cons_append, List.nil_append]
  unfold readChunk
  rw [if_pos (List.prefix_append ..), List.drop_left]
  simp only [readNumber_toString]

theorem length_utf8Bytes_toString_le {n : Nat} (h : n < 2 ^ 64) : (utf8Bytes (toString n)).length ≤ 20 := by
  rw [utf8Bytes_toString, List.length_map]
  exact (Nat.length_toDigits_le_iff (by decide) (by decide)).mpr (by omega)

/-- The room left for headers is enough. -/
theorem length_chunkHeader_le {index totalChunks : Nat} (hindex : index < 2 ^ 64) (htotal : totalChunks < 2 ^ 64) :
    (chunkHeader index totalChunks).length ≤ 48 := by
  have hi := length_utf8Bytes_toString_le hindex
  have ht := length_utf8Bytes_toString_le htotal
  have hprefix : (utf8Bytes "CHUNK|").length = 6 := by decide +kernel
  rw [chunkHeader_eq]
  simp only [List.length_append, List.length_cons, List.length_nil, hprefix]
  omega

/-! ## What the receiver makes of datagrams -/

/-- Datagrams of an allowed size that the receiver turns into `datas`, with no chunks left pending. -/
structure Delivers (datagrams datas : List (List UInt8)) : Prop where
  fits  : ∀ datagram ∈ datagrams, datagram.length ≤ maxUdpPacketSize
  reads : Machine.run (receive newline readChunk) [] datagrams = ([], datas)

theorem Delivers.nil : Delivers [] [] := ⟨nofun, rfl⟩

theorem Delivers.append {datagrams datas datagrams' datas' : List (List UInt8)} (h : Delivers datagrams datas)
    (h' : Delivers datagrams' datas') : Delivers (datagrams ++ datagrams') (datas ++ datas') := by
  refine ⟨List.forall_mem_append.mpr ⟨h.fits, h'.fits⟩, ?_⟩
  exact Machine.run_append h.reads h'.reads

/-- A text that may share a datagram with others and is not taken for a chunk, whatever follows it. -/
structure Sendable (data : List UInt8) : Prop where
  ne_nil    : data ≠ []
  untagged  : ∀ rest, readChunk (data ++ rest) = none
  one_line  : newline ∉ data
  allocated : data.length < 2 ^ 64

/-- **Chunks** of a text give the text. -/
theorem chunkDatagrams_delivers {data : List UInt8} (h : Sendable data) :
    Delivers (chunkDatagrams data) [data] := by
  have hpos : 0 < data.length := List.length_pos_iff.mpr h.ne_nil
  have hcount : 0 < (chunks chunkSize data).length ∧ (chunks chunkSize data).length < 2 ^ 64 := by
    have hlt := h.allocated
    rw [length_chunks, chunkSize]
    omega
  constructor
  · intro datagram hmem
    obtain ⟨⟨chunk, index⟩, hchunk, rfl⟩ := List.mem_map.mp hmem
    obtain ⟨-, hindex, -⟩ := List.mem_zipIdx hchunk
    have hheader : (chunkHeader index (chunks chunkSize data).length).length ≤ 48 :=
      length_chunkHeader_le (by omega) hcount.2
    have hlength : chunk.length ≤ 60000 := length_le_of_mem_chunks (List.fst_mem_of_mem_zipIdx hchunk)
    rw [List.length_append, maxUdpPacketSize]
    omega
  · have hflatten : (chunks chunkSize data).flatten = data := flatten_chunks (by decide) data
    unfold chunkDatagrams
    generalize chunks chunkSize data = cs at *
    rw [run_chunks (List.length_pos_iff.mp hcount.1) (fun index chunk => readChunk_header index cs.length chunk),
      hflatten]

/-! ## The batch -/

/-- The batch holds these texts, joined by newlines. -/
structure Holds (batch : Batch) (datas : List (List UInt8)) : Prop where
  joined   : batch.combinedBuffer = [newline].intercalate datas
  fits     : batch.currentBatchSize ≤ maxUdpPacketSize
  sendable : ∀ data ∈ datas, Sendable data

theorem Holds.empty : Holds .empty [] := ⟨rfl, Nat.zero_le _, nofun⟩

theorem intercalate_append_singleton {datas : List (List UInt8)} (hne : datas ≠ []) (data : List UInt8) :
    [newline].intercalate (datas ++ [data]) = [newline].intercalate datas ++ newline :: data := by
  induction datas with
  | nil => exact absurd rfl hne
  | cons first datas ih =>
      rw [List.cons_append, List.intercalate_cons_of_ne_nil (List.append_ne_nil_of_right_ne_nil _ (List.cons_ne_nil _ _))]
      by_cases hnil : datas = []
      · rw [hnil, List.nil_append, List.intercalate_singleton, List.intercalate_singleton, List.append_assoc]
        rfl
      · rw [ih hnil, List.intercalate_cons_of_ne_nil hnil]
        simp only [List.append_assoc]

/-- What is joined starts with the first text. -/
theorem intercalate_starts (first : List UInt8) (datas : List (List UInt8)) :
    ∃ rest, [newline].intercalate (first :: datas) = first ++ rest := by
  by_cases hnil : datas = []
  · exact ⟨[], by rw [hnil, List.intercalate_singleton, List.append_nil]⟩
  · exact ⟨[newline] ++ [newline].intercalate datas,
      by rw [List.intercalate_cons_of_ne_nil hnil, List.append_assoc]⟩

theorem Holds.size_pos_iff {batch : Batch} {datas : List (List UInt8)} (h : Holds batch datas) :
    0 < batch.currentBatchSize ↔ datas ≠ [] := by
  rw [batch.size_eq, h.joined]
  cases datas with
  | nil => exact iff_of_false (Nat.lt_irrefl 0) fun hne => hne rfl
  | cons first datas =>
      obtain ⟨rest, hrest⟩ := intercalate_starts first datas
      have hne := List.length_pos_iff.mpr (h.sendable first List.mem_cons_self).ne_nil
      rw [hrest, List.length_append]
      exact iff_of_true (by omega) (List.cons_ne_nil _ _)

/-- A flush of the batch delivers what it holds. -/
theorem Holds.delivers {batch : Batch} {datas : List (List UInt8)} (h : Holds batch datas) :
    Delivers batch.datagrams datas := by
  unfold Batch.datagrams
  cases datas with
  | nil =>
      rw [if_neg (fun hpos => h.size_pos_iff.mp hpos rfl)]
      exact .nil
  | cons first datas =>
      rw [if_pos (h.size_pos_iff.mpr (List.cons_ne_nil _ _))]
      have hfits := h.fits
      rw [batch.size_eq] at hfits
      refine ⟨List.forall_mem_singleton.mpr hfits, ?_⟩
      obtain ⟨rest, hrest⟩ := intercalate_starts first datas
      -- the first text decides how the datagram is read
      have hchunk : readChunk ([newline].intercalate (first :: datas)) = none := by
        rw [hrest]
        exact (h.sendable first List.mem_cons_self).untagged rest
      have hreceive := receive_joined (List.cons_ne_nil _ _) (fun data hdata => (h.sendable data hdata).one_line) hchunk
      rw [Machine.run_cons, h.joined, hreceive, Machine.run_nil]
      dsimp only
      rw [List.append_nil]

/-- Another text joins those held. -/
theorem Holds.push {batch : Batch} {datas : List (List UInt8)} {data : List UInt8} (h : Holds batch datas)
    (hdata : Sendable data) (hfits : batch.currentBatchSize = 0 ∧ data.length ≤ maxUdpPacketSize ∨
      batch.currentBatchSize + data.length + 1 ≤ maxUdpPacketSize) : Holds (batch.push data) (datas ++ [data]) := by
  have hsendable : ∀ d ∈ datas ++ [data], Sendable d :=
    List.forall_mem_append.mpr ⟨h.sendable, List.forall_mem_singleton.mpr hdata⟩
  unfold Batch.push
  by_cases hpos : batch.currentBatchSize > 0
  · rw [dif_pos hpos]
    refine ⟨?_, ?_, hsendable⟩
    · dsimp only
      rw [h.joined, intercalate_append_singleton (h.size_pos_iff.mp hpos)]
    · dsimp only
      omega
  · rw [dif_neg hpos]
    -- no newline before the first text
    have hnil : datas = [] := not_not.mp fun hne => hpos (h.size_pos_iff.mpr hne)
    refine ⟨?_, ?_, hsendable⟩
    · dsimp only
      rw [h.joined, hnil, List.nil_append, List.intercalate_nil, List.intercalate_singleton, List.nil_append]
    · dsimp only
      omega

/-! ## Packet by packet -/

/-- **One packet.** What is sent and what waits in the batch are, together, what waited before and the packet. -/
theorem sendPacket_spec {batch : Batch} {datas : List (List UInt8)} {data : List UInt8} (h : Holds batch datas)
    (hdata : Sendable data) : ∃ sent waiting, sent ++ waiting = datas ++ [data] ∧
      Delivers (sendPacket batch data).2 sent ∧ Holds (sendPacket batch data).1 waiting := by
  unfold sendPacket
  -- a packet that fits no datagram goes out in chunks, behind what waits
  by_cases hlarge : data.length > maxUdpPacketSize
  · rw [if_pos hlarge]
    exact ⟨datas ++ [data], [], List.append_nil _, h.delivers.append (chunkDatagrams_delivers hdata), .empty⟩
  rw [if_neg hlarge]
  -- a batch without room is sent, and the packet starts the next
  by_cases hfull : batch.currentBatchSize + data.length + 1 > maxBatchSize
  · rw [if_pos hfull]
    exact ⟨datas, [data], rfl, h.delivers, Holds.empty.push hdata (.inl ⟨rfl, Nat.le_of_not_lt hlarge⟩)⟩
  · rw [if_neg hfull]
    have hroom : maxBatchSize ≤ maxUdpPacketSize := by decide
    exact ⟨[], datas ++ [data], rfl, .nil, h.push hdata (.inr (by omega))⟩

theorem flushFrom_cons (batch : Batch) (data : List UInt8) (datas : List (List UInt8)) :
    flushFrom batch (data :: datas) = (sendPacket batch data).2 ++ flushFrom (sendPacket batch data).1 datas := by
  unfold flushFrom
  rw [Machine.run_cons, List.append_assoc]

/-- **A flush** delivers what waited and every packet, in order. -/
theorem flushFrom_delivers {batch : Batch} {waiting datas : List (List UInt8)} (h : Holds batch waiting)
    (hdatas : ∀ data ∈ datas, Sendable data) : Delivers (flushFrom batch datas) (waiting ++ datas) := by
  induction datas generalizing batch waiting with
  | nil =>
      rw [List.append_nil]
      exact h.delivers
  | cons data datas ih =>
      obtain ⟨hdata, hrest⟩ := List.forall_mem_cons.mp hdatas
      obtain ⟨sent, waiting', heq, hsent, hwaiting⟩ := sendPacket_spec h hdata
      have hall : waiting ++ data :: datas = sent ++ (waiting' ++ datas) := by
        rw [← List.append_assoc, heq, List.append_assoc]
        rfl
      rw [flushFrom_cons, hall]
      exact hsent.append (ih hwaiting hrest)

/-! ## Every packet's text -/

def tags : List String := ["TRADE|", "ORDERBOOK|", "STATS|", "EXCHANGE|", "CONN|"]

theorem encode_tagged {json : ToJson} {now : Int} {packet : UdpPacket} {text : String}
    (h : encode json now packet = some text) : ∃ tag ∈ tags, ∃ body, text = tag ++ body := by
  cases packet with
  | trade trade =>
      obtain ⟨body, -, rfl⟩ := Option.map_eq_some_iff.mp h
      exact ⟨"TRADE|", by decide, body, rfl⟩
  | orderBook orderbook =>
      obtain ⟨body, -, rfl⟩ := Option.map_eq_some_iff.mp h
      exact ⟨"ORDERBOOK|", by decide, body, rfl⟩
  | stats exchange trades orderbooks => exact ⟨"STATS|", by decide, _, (Option.some.inj h).symm⟩
  | exchangeData exchange assetType trades orderbooks =>
      exact ⟨"EXCHANGE|", by decide, _, (Option.some.inj h).symm⟩
  | connectionStatus exchange connected disconnected reconnectCount total =>
      exact ⟨"CONN|", by decide, _, (Option.some.inj h).symm⟩
  | exchangeDataWithStatus exchange assetType trades orderbooks connected disconnected reconnectCount =>
      exact ⟨"EXCHANGE|", by decide, _, (Option.some.inj h).symm⟩

/-- No tag is the start of a chunk header, or the other way round. -/
theorem tags_apart : ∀ tag ∈ tags, ¬ utf8Bytes "CHUNK|" <+: utf8Bytes tag ∧
    ¬ utf8Bytes tag <+: utf8Bytes "CHUNK|" ∧ utf8Bytes tag ≠ [] := by
  decide +kernel

/-- A tagged text is not empty and is never read as a chunk. -/
theorem tagged_untagged {tag : String} (htag : tag ∈ tags) (body : String) :
    utf8Bytes (tag ++ body) ≠ [] ∧ ∀ rest, readChunk (utf8Bytes (tag ++ body) ++ rest) = none := by
  obtain ⟨hchunk, htag', hne⟩ := tags_apart tag htag
  rw [utf8Bytes_append]
  refine ⟨List.append_ne_nil_of_left_ne_nil hne _, fun rest => if_neg fun hstart => ?_⟩
  rw [List.append_assoc] at hstart
  -- a text that starts with both starts with one that starts with the other
  rcases List.prefix_or_prefix_of_prefix hstart (List.prefix_append ..) with hle | hle
  · exact hchunk hle
  · exact htag' hle

theorem encodings_sendable {json : ToJson} {packets : List (UdpPacket × Int)} {data : List UInt8}
    (hmem : data ∈ encodings json packets) (hline : newline ∉ data) (hsize : data.length < 2 ^ 64) :
    Sendable data := by
  obtain ⟨⟨packet, now⟩, -, hencode⟩ := List.mem_filterMap.mp hmem
  obtain ⟨text, htext, rfl⟩ := Option.map_eq_some_iff.mp hencode
  obtain ⟨tag, htag, body, rfl⟩ := encode_tagged htext
  obtain ⟨hne, huntagged⟩ := tagged_untagged htag body
  exact ⟨hne, huntagged, hline, hsize⟩

/-- **Batched framing.** Packets whose texts are single lines are sent in datagrams of an allowed size, from which
    the receiver gets exactly these texts, each once and in order. Lengths are 64-bit numbers. -/
theorem batched_framing_roundTrip (json : ToJson) (packets : List (UdpPacket × Int))
    (hlines : ∀ data ∈ encodings json packets, newline ∉ data)
    (hsize : ∀ data ∈ encodings json packets, data.length < 2 ^ 64) :
    (∀ datagram ∈ flushPackets json packets, datagram.length ≤ 65507) ∧
      reassemble (flushPackets json packets) = encodings json packets := by
  have hdelivers : Delivers (flushPackets json packets) ([] ++ encodings json packets) :=
    flushFrom_delivers .empty fun data hmem => encodings_sendable hmem (hlines data hmem) (hsize data hmem)
  refine ⟨hdelivers.fits, ?_⟩
  rw [reassemble, hdelivers.reads]
  rfl

/-- No JSON, and two status packets. -/
def noJson : ToJson := { trade := fun _ => none, orderbook := fun _ => none }

def statusPackets : List (UdpPacket × Int) :=
  [(.connectionStatus "OKX" 3 1 2 4, 1700000000), (.stats "Bybit" 120 80, 1700000001)]

theorem batched_framing_roundTrip_statusPackets :
    (∀ datagram ∈ flushPackets noJson statusPackets, datagram.length ≤ 65507) ∧
      reassemble (flushPackets noJson statusPackets) = encodings noJson statusPackets :=
  batched_framing_roundTrip noJson statusPackets (by decide +kernel) (by decide +kernel)

end Batching
end Sender
end TradingPlatform
