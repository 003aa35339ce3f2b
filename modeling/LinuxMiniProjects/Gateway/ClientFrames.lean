import LinuxMiniProjects.Lib.Machine
import LinuxMiniProjects.Lib.Socket
import LinuxMiniProjects.Gateway.Framing
import LinuxMiniProjects.Gateway.TlsClient

/-!
Frames at the client (`recv_one_frame` in `client/client_tls.c` and
`client/client.c`).

Each call reads into a buffer of its own, as much as the transport gives
it, until the buffer starts with a whole frame. The frame is returned; the
buffer is not kept. So a client gets the frames of its connection one by
one as long as no read goes beyond the end of the frame it is for, and
when one does, the beginning of the next frame is gone. It is gone for
good: a later call that returned the right frame all the same would lack
bytes in the end.

The two programs differ in the transport, `SSL_read` in one and `recv` in
the other; and only the other goes on after a signal. What a transport
has to do is in `Delivers`, and the argument is made once, over it.
-/

namespace LinuxMiniProjects.Gateway

open Bytes Machine

/-! ### The two functions -/

namespace TlsClient

/-- The loop of `recv_one_frame`, for a client that reads with `turn`: the
type and the payload it returns, if it returns `0`. -/
def recvLoop {σ : Type*} (turn : List UInt8 → σ → RecvTurn × σ) :
    ℕ → List UInt8 → σ → Option (UInt16 × List UInt8) × σ
  | 0, _, s => (none, s)
  | fuel + 1, buf, s =>
      match turn buf s with
      | (.again buf, s) => recvLoop turn fuel buf s
      | (.failed, s) => (none, s)
      | (.frame type payload _, s) => (some (type, payload), s)

/-- `recv_one_frame` of the TLS client. A turn that goes on has taken
something off the transport. -/
def recvOneFrame (ssl : Ssl) : Option (UInt16 × List UInt8) × Ssl :=
  recvLoop (recvTurn maxPayload) (ssl.weight + 1) [] ssl

end TlsClient

namespace PlainClient

open TlsClient Socket

/-- A turn of the loop of `recv_one_frame` in `client.c`. -/
def recvTurn (cap : ℕ) (buf : List UInt8) (items : List Item) : RecvTurn × List Item :=
  match recv (headerSize + maxPayload + crcSize - buf.length) items with
  | (.eintr, items) => (.again buf, items)
  | (.eagain, items) => (.failed, items)
  | (.error, items) => (.failed, items)
  | (.eof, items) => (.failed, items)
  | (.data b bs, items) => (recvCheck cap (buf ++ b :: bs), items)

/-- `recv_one_frame` of the client without TLS. -/
def recvOneFrame (items : List Item) : Option (UInt16 × List UInt8) × List Item :=
  recvLoop (recvTurn maxPayload) (weight items + 1) [] items

end PlainClient

/-! ### Pieces -/

/-- What a read finds when bytes do arrive: some of them, or a signal. -/
inductive Piece
  | chunk (b : UInt8) (bs : List UInt8)
  | eintr

def Piece.bytes : Piece → List UInt8
  | .chunk b bs => b :: bs
  | .eintr => []

def pieceBytes (ps : List Piece) : List UInt8 := ps.flatMap Piece.bytes

def Piece.record : Piece → SockItem
  | .chunk b bs => .record b bs
  | .eintr => .eintr

def Piece.item : Piece → Socket.Item
  | .chunk b bs => .chunk b bs
  | .eintr => .eintr

def pieceOf : List UInt8 → List Piece
  | [] => []
  | b :: bs => [.chunk b bs]

@[simp] theorem pieceBytes_cons (p : Piece) (ps : List Piece) :
    pieceBytes (p :: ps) = p.bytes ++ pieceBytes ps := rfl

@[simp] theorem pieceBytes_append (ps qs : List Piece) :
    pieceBytes (ps ++ qs) = pieceBytes ps ++ pieceBytes qs := List.flatMap_append

@[simp] theorem pieceBytes_pieceOf (bs : List UInt8) : pieceBytes (pieceOf bs) = bs := by
  cases bs with
  | nil => rfl
  | cons b bs => exact List.append_nil _

theorem eintr_notMem_pieceOf (bs : List UInt8) : .eintr ∉ pieceOf bs := by
  cases bs <;> simp [pieceOf]

theorem length_pieceBytes_le {ps qs : List Piece} (h : qs <:+ ps) :
    (pieceBytes qs).length ≤ (pieceBytes ps).length := by
  obtain ⟨front, rfl⟩ := h
  rw [pieceBytes_append, List.length_append]
  exact Nat.le_add_left _ _

/-- Pieces are taken off the front of `ps`, the last of them perhaps in
part, and `qs` is left. -/
def Leaves (ps qs : List Piece) : Prop :=
  ∀ rest, (pieceBytes rest).length < (pieceBytes qs).length → (rest <:+ qs ↔ rest <:+ ps)

theorem Leaves.trans {ps qs rs : List Piece} (h : Leaves ps qs) (h' : Leaves qs rs)
    (hle : (pieceBytes rs).length ≤ (pieceBytes qs).length) : Leaves ps rs :=
  fun rest hlt => (h' rest hlt).trans (h rest (hlt.trans_le hle))

theorem leaves_cons {p : Piece} {bs : List UInt8} (ps : List Piece)
    (h : bs.length ≤ p.bytes.length) : Leaves (p :: ps) (pieceOf bs ++ ps) := by
  intro rest hlt
  rw [pieceBytes_append, pieceBytes_pieceOf, List.length_append] at hlt
  have hwhole : rest ≠ p :: ps := by
    rintro rfl
    rw [pieceBytes_cons, List.length_append] at hlt
    omega
  rw [List.suffix_cons_iff, or_iff_right hwhole]
  cases bs with
  | nil => rfl
  | cons b bs =>
      have hpart : rest ≠ .chunk b bs :: ps := by
        rintro rfl
        rw [pieceBytes_cons, List.length_append, Piece.bytes] at hlt
        exact lt_irrefl _ hlt
      exact List.suffix_cons_iff.trans (or_iff_right hpart)

/-! ### What a read makes of a frame -/

theorem Request.length_encode_le (r : Request) :
    r.encode.length ≤ headerSize + maxPayload + crcSize := by
  have := r.short
  rw [r.length_encode, packetSize]
  omega

theorem Request.encode_ne_nil (r : Request) : r.encode ≠ [] := by
  intro hnil
  have hlen := congrArg List.length hnil
  rw [r.length_encode, packetSize, headerSize] at hlen
  simp at hlen

/-- Where a frame ends a piece ends, unless the frame is as long as the
buffer of the reader. -/
def Separate (rs : List Request) (ps : List Piece) : Prop :=
  ∀ r rest, r :: rest <:+ rs →
    r.payload.length = maxPayload ∨ ∃ qs, qs <:+ ps ∧ pieceBytes qs = stream rest

theorem separate_cons {r : Request} {rs : List Request} {ps : List Piece} :
    Separate (r :: rs) ps ↔
      (r.payload.length = maxPayload ∨ ∃ qs, qs <:+ ps ∧ pieceBytes qs = stream rs) ∧
        Separate rs ps := by
  constructor
  · intro h
    exact ⟨h r rs (List.suffix_refl _),
      fun r' rest hsuffix => h r' rest (hsuffix.trans (List.suffix_cons _ _))⟩
  · rintro ⟨hfirst, hrest⟩ r' rest hsuffix
    obtain heq | hsuffix := List.suffix_cons_iff.mp hsuffix
    · cases heq
      exact hfirst
    · exact hrest r' rest hsuffix

theorem length_stream_lt {r : Request} {rest rs : List Request} (h : r :: rest <:+ rs) :
    (stream rest).length < (stream rs).length := by
  obtain ⟨front, rfl⟩ := h
  have hpos := List.length_pos_of_ne_nil r.encode_ne_nil
  rw [stream_append, stream_cons, List.length_append, List.length_append]
  omega

theorem Leaves.separate_iff {rs : List Request} {ps qs : List Piece} (h : Leaves ps qs)
    (hqs : pieceBytes qs = stream rs) : Separate rs qs ↔ Separate rs ps := by
  refine forall_congr' fun r => forall_congr' fun rest => forall_congr' fun hsuffix =>
    or_congr Iff.rfl (exists_congr fun left => and_congr_left fun hleft => h left ?_)
  rw [hleft, hqs]
  exact length_stream_lt hsuffix

namespace TlsClient

theorem recvCheck_incomplete {cap : ℕ} {buf V : List UInt8} {r : Request} (h : buf ++ V = r.encode)
    (hV : V ≠ []) : recvCheck cap buf = .again buf := by
  unfold recvCheck
  split
  · rfl
  next hheader =>
    have hlen : (decode32Bit (ofList buf) 8).toNat = r.payload.length := by
      have hbuf : headerOf buf = r.header := by
        rw [← headerOf_append (Nat.le_of_not_lt hheader) V, h, r.headerOf_encode]
      rw [← r.toNat_length, ← hbuf]
      rfl
    have hshort := r.short
    have htotal : buf.length + V.length = headerSize + r.payload.length + crcSize := by
      rw [← List.length_append, h, r.length_encode, packetSize]
    have hpos : 0 < V.length := List.length_pos_of_ne_nil hV
    dsimp only
    rw [hlen, if_neg (by omega), if_pos (by omega)]

theorem recvCheck_encode {cap : ℕ} (r : Request) (hcap : r.payload.length ≤ cap) :
    recvCheck cap r.encode = .frame r.type r.payload r.encode := by
  have hlen : (decode32Bit (ofList r.encode) 8).toNat = r.payload.length := by
    rw [← r.toNat_length, ← r.headerOf_encode]
    rfl
  have hpayload : slice (ofList r.encode) headerSize r.payload.length = r.payload := by
    rw [r.encode_eq]
    exact slice_ofList_append _ r.payload _
  have hcrc : decode32Bit (ofList r.encode) (headerSize + r.payload.length) =
      crcCalculate r.payload := by
    rw [← r.crcOf_encode, crcOf, r.headerOf_encode, r.toNat_length]
  have htype : decode16Bit (ofList r.encode) 6 = r.type :=
    congrArg HeaderPacket.type r.headerOf_encode
  have hsize := r.length_encode
  have hshort := r.short
  rw [packetSize] at hsize
  simp only [recvCheck, hlen, hpayload, hcrc, htype]
  rw [if_neg (by omega), if_neg (by omega), if_neg (by omega), if_neg (by simp), if_neg (by omega)]

theorem length_lt_of_recvCheck_again {cap : ℕ} {buf buf' : List UInt8}
    (h : recvCheck cap buf = .again buf') : buf' = buf ∧ buf.length < packetSize maxPayload := by
  unfold recvCheck at h
  rw [packetSize]
  split at h
  next hheader =>
    cases h
    exact ⟨rfl, by omega⟩
  dsimp only at h
  split at h
  · cases h
  split at h
  next hle hlt =>
    cases h
    exact ⟨rfl, by omega⟩
  split at h
  · cases h
  split at h
  · cases h
  · cases h

theorem length_le_of_recvCheck_frame {cap : ℕ} {buf buf' payload : List UInt8} {type : UInt16}
    (h : recvCheck cap buf = .frame type payload buf') :
    packetSize payload.length ≤ buf.length := by
  unfold recvCheck at h
  split at h
  · cases h
  dsimp only at h
  split at h
  · cases h
  split at h
  · cases h
  next hle =>
    split at h
    · cases h
    split at h
    · cases h
    · cases h
      rw [length_slice, packetSize]
      omega

/-- What a client with `buf` takes of a piece, and what it leaves. -/
def taken (buf : List UInt8) (p : Piece) : List UInt8 :=
  p.bytes.take (packetSize maxPayload - buf.length)

def left (buf : List UInt8) (p : Piece) : List UInt8 :=
  p.bytes.drop (packetSize maxPayload - buf.length)

def pieceTurn (buf : List UInt8) : Piece → RecvTurn
  | .chunk b bs => recvCheck maxPayload (buf ++ taken buf (.chunk b bs))
  | .eintr => .again buf

/-- A transport that holds pieces hands them out one by one, as much of
each as the reader has room for. -/
structure Delivers {σ : Type*} (turn : List UInt8 → σ → RecvTurn × σ)
    (Holds : σ → List Piece → Prop) : Prop where
  nil : ∀ {s} buf, Holds s [] → ∃ s', turn buf s = (.failed, s')
  cons : ∀ {s p ps buf}, Holds s (p :: ps) → buf.length < packetSize maxPayload →
    ∃ s', turn buf s = (pieceTurn buf p, s') ∧ Holds s' (pieceOf (left buf p) ++ ps)

section Read

variable {buf : List UInt8} {p : Piece} {ps : List Piece} {r : Request}

theorem pieceBytes_read :
    pieceBytes (p :: ps) = taken buf p ++ pieceBytes (pieceOf (left buf p) ++ ps) := by
  rw [pieceBytes_append, pieceBytes_pieceOf, ← List.append_assoc, taken, left,
    List.take_append_drop]
  rfl

theorem leaves_read : Leaves (p :: ps) (pieceOf (left buf p) ++ ps) := by
  refine leaves_cons ps ?_
  rw [left, List.length_drop]
  exact Nat.sub_le _ _

theorem full_or_left (p : Piece) (hbuf : buf.length < packetSize maxPayload) :
    (buf ++ taken buf p).length = packetSize maxPayload ∨ left buf p = [] := by
  rw [left, List.drop_eq_nil_iff, List.length_append, taken, List.length_take]
  omega

theorem pieceTurn_encode (h : buf ++ taken buf p = r.encode) (hlt : buf.length < r.encode.length) :
    pieceTurn buf p = .frame r.type r.payload r.encode := by
  cases p with
  | eintr =>
      rw [← h] at hlt
      simp [taken, Piece.bytes] at hlt
  | chunk b bs => rw [pieceTurn, h, recvCheck_encode r r.short]

theorem pieceTurn_incomplete {V : List UInt8} (h : buf ++ taken buf p ++ V = r.encode)
    (hV : V ≠ []) : pieceTurn buf p = .again (buf ++ taken buf p) := by
  cases p with
  | eintr => simp [pieceTurn, taken, Piece.bytes]
  | chunk b bs => exact recvCheck_incomplete h hV

theorem pieceTurn_again {buf' : List UInt8} (hbuf : buf.length < packetSize maxPayload)
    (h : pieceTurn buf p = .again buf') :
    buf' = buf ++ taken buf p ∧ buf'.length < packetSize maxPayload := by
  cases p with
  | eintr =>
      cases h
      exact ⟨by simp [taken, Piece.bytes], hbuf⟩
  | chunk b bs =>
      obtain ⟨rfl, hless⟩ := length_lt_of_recvCheck_again h
      exact ⟨rfl, hless⟩

end Read

section Delivers

variable {σ : Type*} {turn : List UInt8 → σ → RecvTurn × σ} {Holds : σ → List Piece → Prop}

/-- **The loop** returns the frame whose bytes come first and leaves what
comes behind it, if the frame ends where a piece ends or fills the
buffer. -/
theorem Delivers.recvLoop_frame (h : Delivers turn Holds) {fuel : ℕ} {buf tail : List UInt8}
    {s : σ} {ps : List Piece} {r : Request} (hs : Holds s ps)
    (hbytes : buf ++ pieceBytes ps = r.encode ++ tail) (hlt : buf.length < r.encode.length)
    (hcut : r.encode.length = packetSize maxPayload ∨ ∃ qs, qs <:+ ps ∧ pieceBytes qs = tail)
    (hfuel : ps.length ≤ fuel) :
    ∃ s' qs, TlsClient.recvLoop turn fuel buf s = (some (r.type, r.payload), s') ∧
      Holds s' qs ∧ pieceBytes qs = tail ∧ Leaves ps qs := by
  have hmax : r.encode.length ≤ packetSize maxPayload := r.length_encode_le
  induction ps generalizing fuel buf s with
  | nil =>
      have hlen := congrArg List.length hbytes
      simp only [pieceBytes, List.flatMap_nil, List.append_nil, List.length_append] at hlen
      omega
  | cons p ps ih =>
      obtain ⟨fuel, rfl⟩ := Nat.exists_eq_add_of_le' (Nat.le_trans (Nat.le_add_left 1 _) hfuel)
      have hlen := congrArg List.length hbytes
      simp only [pieceBytes_cons, List.length_append] at hlen
      -- the tail starts behind this piece
      have hcut' : r.encode.length = packetSize maxPayload ∨
          ∃ qs, qs <:+ ps ∧ pieceBytes qs = tail := by
        refine hcut.imp_right ?_
        rintro ⟨qs, hqs, rfl⟩
        obtain rfl | hqs := List.suffix_cons_iff.mp hqs
        · simp only [pieceBytes_cons, List.length_append] at hlen
          omega
        · exact ⟨qs, hqs, rfl⟩
      have hbuf := hlt.trans_le hmax
      obtain ⟨s', hturn, hs'⟩ := h.cons hs hbuf
      rw [pieceBytes_read, ← List.append_assoc] at hbytes
      have htaken : (buf ++ taken buf p).length ≤ r.encode.length := by
        rw [List.length_append, taken, List.length_take]
        obtain hfull | ⟨qs, hqs, rfl⟩ := hcut'
        · omega
        · have hle := length_pieceBytes_le hqs
          omega
      rcases htaken.eq_or_lt with heq | hless
      · -- the frame is complete
        obtain ⟨hframe, htail⟩ := List.append_inj hbytes heq
        rw [pieceTurn_encode hframe hlt] at hturn
        refine ⟨s', _, ?_, hs', htail, leaves_read⟩
        simp only [TlsClient.recvLoop, hturn]
      · have hleft : left buf p = [] :=
          (full_or_left p hbuf).resolve_left (hless.trans_le hmax).ne
        obtain ⟨V, hV⟩ : buf ++ taken buf p <+: r.encode :=
          List.prefix_of_prefix_length_le ⟨_, hbytes⟩ (List.prefix_append _ _) hless.le
        have hne : V ≠ [] := by
          rintro rfl
          rw [← hV, List.append_nil] at hless
          exact lt_irrefl _ hless
        have hleaves : Leaves (p :: ps) (pieceOf (left buf p) ++ ps) := leaves_read
        rw [pieceTurn_incomplete hV hne] at hturn
        rw [hleft] at hs' hbytes hleaves
        obtain ⟨s'', qs, hloop, hs'', hqs, hleaves'⟩ :=
          ih hs' hbytes hless hcut' (Nat.le_of_succ_le_succ hfuel)
        refine ⟨s'', qs, ?_, hs'', hqs, hleaves.trans hleaves' ?_⟩
        · simp only [TlsClient.recvLoop, hturn, hloop]
        · have htotal := congrArg List.length hbytes
          simp only [List.length_append] at htotal hless
          rw [hqs]
          omega

/-- **A call that returns a frame** has taken at least the bytes of the
frame. It has filled its buffer, or it has taken whole pieces. -/
theorem Delivers.recvLoop_some (h : Delivers turn Holds) {fuel : ℕ} {buf payload : List UInt8}
    {s s' : σ} {ps : List Piece} {type : UInt16} (hs : Holds s ps)
    (hbuf : buf.length < packetSize maxPayload)
    (hloop : TlsClient.recvLoop turn fuel buf s = (some (type, payload), s')) :
    ∃ qs taken, Holds s' qs ∧ pieceBytes ps = taken ++ pieceBytes qs ∧
      packetSize payload.length ≤ (buf ++ taken).length ∧
      ((buf ++ taken).length = packetSize maxPayload ∨ qs <:+ ps) ∧ Leaves ps qs := by
  induction fuel generalizing buf s ps with
  | zero => cases hloop
  | succ fuel ih =>
      cases ps with
      | nil =>
          obtain ⟨s'', hturn⟩ := h.nil buf hs
          simp only [TlsClient.recvLoop, hturn] at hloop
          cases hloop
      | cons p ps =>
          obtain ⟨s'', hturn, hs''⟩ := h.cons hs hbuf
          have hsplit : pieceBytes (p :: ps) =
              taken buf p ++ pieceBytes (pieceOf (left buf p) ++ ps) := pieceBytes_read
          have hleaves : Leaves (p :: ps) (pieceOf (left buf p) ++ ps) := leaves_read
          have hend := full_or_left p hbuf
          simp only [TlsClient.recvLoop, hturn] at hloop
          cases hcheck : pieceTurn buf p with
          | again buf' =>
              obtain ⟨rfl, hless⟩ := pieceTurn_again hbuf hcheck
              rw [hcheck] at hloop
              rw [hend.resolve_left hless.ne] at hs'' hsplit hleaves
              obtain ⟨qs, taken', hqs, hbytes, hlen, hend', hleaves'⟩ := ih hs'' hless hloop
              rw [List.append_assoc] at hlen hend'
              refine ⟨qs, taken buf p ++ taken', hqs, ?_, hlen,
                hend'.imp_right fun hsuffix => hsuffix.trans (List.suffix_cons _ _),
                hleaves.trans hleaves' ?_⟩
              · rw [hsplit, hbytes, List.append_assoc]
              · rw [hbytes, List.length_append]
                exact Nat.le_add_left _ _
          | failed =>
              rw [hcheck] at hloop
              cases hloop
          | frame type' payload' buf' =>
              rw [hcheck] at hloop
              cases hloop
              refine ⟨_, _, hs'', hsplit, ?_, ?_, hleaves⟩
              · cases p with
                | eintr => cases hcheck
                | chunk b bs => exact length_le_of_recvCheck_frame hcheck
              · refine hend.imp_right fun hnil => ?_
                rw [hnil]
                exact List.suffix_cons _ _

section Calls

variable {size : σ → ℕ}

/-- A call of `recv_one_frame`, for a transport with at most `size` pieces. -/
def call (turn : List UInt8 → σ → RecvTurn × σ) (size : σ → ℕ) (s : σ) (_ : Unit) :
    Option (UInt16 × List UInt8) × σ :=
  TlsClient.recvLoop turn (size s + 1) [] s

theorem Delivers.length_stream_le (h : Delivers turn Holds) {rs : List Request} {s : σ}
    {ps : List Piece} (hs : Holds s ps)
    (htrace : Machine.trace (call turn size) s (rs.map fun _ => ()) =
      rs.map fun r => some (r.type, r.payload)) :
    (stream rs).length ≤ (pieceBytes ps).length := by
  induction rs generalizing s ps with
  | nil => exact Nat.zero_le _
  | cons r rs ih =>
      obtain ⟨hfirst, hrest⟩ := List.cons.inj htrace
      obtain ⟨qs, taken, hqs, hbytes, hlen, -, -⟩ :=
        h.recvLoop_some hs (by decide) (Prod.ext hfirst rfl)
      have hle := ih hqs hrest
      rw [stream_cons, hbytes, List.length_append, List.length_append, r.length_encode]
      exact Nat.add_le_add hlen hle

/-- **Calls** return the frames one by one if and only if the frames come in
pieces of their own. -/
theorem Delivers.trace_iff (h : Delivers turn Holds) (size : σ → ℕ)
    (hsize : ∀ {s ps}, Holds s ps → ps.length ≤ size s + 1) {rs : List Request} {s : σ}
    {ps : List Piece} (hs : Holds s ps) (hps : pieceBytes ps = stream rs) :
    Machine.trace (call turn size) s (rs.map fun _ => ()) =
        rs.map (fun r => some (r.type, r.payload)) ↔ Separate rs ps := by
  induction rs generalizing s ps with
  | nil => exact iff_of_true rfl fun r rest hsuffix => by simp at hsuffix
  | cons r rs ih =>
      rw [separate_cons]
      rw [stream_cons] at hps
      constructor
      · intro htrace
        obtain ⟨hfirst, hrest⟩ := List.cons.inj htrace
        obtain ⟨qs, taken, hqs, hbytes, hlen, hend, hleaves⟩ :=
          h.recvLoop_some hs (by decide) (Prod.ext hfirst rfl)
        -- the calls to come need all bytes behind the frame
        have hle := h.length_stream_le hqs hrest
        have htotal := congrArg List.length (hbytes.symm.trans hps)
        rw [List.length_append, List.length_append, r.length_encode] at htotal
        rw [List.nil_append] at hlen hend
        have htaken : taken.length = r.encode.length := by
          rw [r.length_encode]
          omega
        obtain ⟨-, htail⟩ := List.append_inj (hbytes.symm.trans hps) htaken
        refine ⟨hend.imp ?_ fun hsuffix => ⟨qs, hsuffix, htail⟩, ?_⟩
        · intro hfull
          rw [htaken, r.length_encode, packetSize, packetSize] at hfull
          omega
        · exact (hleaves.separate_iff htail).mp ((ih hqs htail).mp hrest)
      · rintro ⟨hcut, hsep⟩
        have hcut' : r.encode.length = packetSize maxPayload ∨
            ∃ qs, qs <:+ ps ∧ pieceBytes qs = stream rs :=
          hcut.imp_left fun hfull => by rw [r.length_encode, hfull]
        obtain ⟨s', qs, hcall, hqs, htail, hleaves⟩ :=
          h.recvLoop_frame hs ((List.nil_append _).trans hps)
            (List.length_pos_of_ne_nil r.encode_ne_nil) hcut' (hsize hs)
        have hrest := (ih hqs htail).mpr ((hleaves.separate_iff htail).mpr hsep)
        rw [List.map_cons, List.map_cons, Machine.trace, call, hcall, hrest]

end Calls

end Delivers

/-- The TLS connection holds the pieces: what is left of one that has been
decrypted, and records. No read is interrupted. -/
def HoldsRecords (ssl : Ssl) (ps : List Piece) : Prop :=
  .eintr ∉ ps ∧ ∃ qs, ps = pieceOf ssl.pending ++ qs ∧ ssl.kernel = qs.map Piece.record

theorem delivers_records : Delivers (recvTurn maxPayload) HoldsRecords where
  nil := by
    rintro ⟨pending, kernel, pos⟩ buf ⟨-, qs, hqs, hkernel⟩
    obtain ⟨hpending, rfl⟩ := List.append_eq_nil_iff.mp hqs.symm
    cases pending with
    | cons b bs => cases hpending
    | nil =>
        cases hkernel
        exact ⟨_, rfl⟩
  cons := by
    rintro ⟨pending, kernel, pos⟩ p ps buf ⟨hnone, qs, hqs, hkernel⟩ hroom
    obtain ⟨num, hnum⟩ := Nat.exists_eq_succ_of_ne_zero (Nat.sub_ne_zero_of_lt hroom)
    have hnum' : headerSize + maxPayload + crcSize - buf.length = num + 1 := hnum
    cases p with
    | eintr => exact absurd List.mem_cons_self hnone
    | chunk b bs =>
        have hrest : .eintr ∉ pieceOf ((b :: bs).drop (num + 1)) ++ ps := by
          intro hmem
          obtain hmem | hmem := List.mem_append.mp hmem
          · exact eintr_notMem_pieceOf _ hmem
          · exact hnone (List.mem_cons_of_mem _ hmem)
        rw [pieceTurn, taken, left, hnum]
        refine ⟨⟨(b :: bs).drop (num + 1), ps.map Piece.record,
          pos + ((b :: bs).take (num + 1)).length⟩, ?_, hrest, ps, rfl, rfl⟩
        rw [recvTurn, hnum']
        cases pending <;> (cases hqs; cases hkernel; rfl)

end TlsClient

namespace PlainClient

open TlsClient Socket

theorem map_item_pieceOf (bs : List UInt8) : (pieceOf bs).map Piece.item = chunkOf bs := by
  cases bs <;> rfl

theorem delivers_items :
    Delivers (recvTurn maxPayload) fun items ps => items = ps.map Piece.item where
  nil := by
    rintro items buf rfl
    exact ⟨[], by simp [recvTurn, recv]⟩
  cons := by
    rintro items p ps buf rfl hroom
    obtain ⟨num, hnum⟩ := Nat.exists_eq_succ_of_ne_zero (Nat.sub_ne_zero_of_lt hroom)
    have hnum' : headerSize + maxPayload + crcSize - buf.length = num + 1 := hnum
    refine ⟨(pieceOf (left buf p) ++ ps).map Piece.item, ?_, rfl⟩
    rw [List.map_append, map_item_pieceOf, recvTurn, hnum', left, hnum]
    cases p with
    | eintr => rfl
    | chunk b bs =>
        rw [pieceTurn, taken, hnum]
        rfl

end PlainClient

/-! ### Calls -/

/-- A call of `recv_one_frame`, of the one client and of the other. -/
def TlsClient.frameCall (ssl : Ssl) (_ : Unit) : Option (UInt16 × List UInt8) × Ssl :=
  TlsClient.recvOneFrame ssl

def PlainClient.frameCall (items : List Socket.Item) (_ : Unit) :
    Option (UInt16 × List UInt8) × List Socket.Item :=
  PlainClient.recvOneFrame items

/-- **Frames at the client.** The bytes of frames of `packet_encode` arrive
in any pieces. Calls of `recv_one_frame` return the types and payloads of
the frames, one for each call and in order, if and only if where a frame
ends a piece ends, or the frame has the largest payload. This holds for
both clients; reads of the one without TLS may be interrupted besides. -/
theorem frames_received_iff {rs : List Request} {ps : List Piece}
    (hps : pieceBytes ps = stream rs) (pos : ℕ) :
    (.eintr ∉ ps →
      (trace TlsClient.frameCall ⟨[], ps.map Piece.record, pos⟩ (rs.map fun _ => ()) =
        rs.map (fun r => some (r.type, r.payload)) ↔ Separate rs ps)) ∧
      (trace PlainClient.frameCall (ps.map Piece.item) (rs.map fun _ => ()) =
        rs.map (fun r => some (r.type, r.payload)) ↔ Separate rs ps) := by
  constructor
  · intro hnone
    refine TlsClient.delivers_records.trace_iff Ssl.weight ?_ ⟨hnone, ps, rfl, rfl⟩ hps
    rintro ⟨pending, kernel, pos⟩ ps ⟨-, qs, rfl, rfl⟩
    have hle := Ssl.length_kernel_le_weight ⟨pending, qs.map Piece.record, pos⟩
    have hone : (pieceOf pending).length ≤ 1 := by cases pending <;> simp [pieceOf]
    rw [List.length_map] at hle
    rw [List.length_append, Nat.add_comm]
    exact Nat.add_le_add hle hone
  · refine PlainClient.delivers_items.trace_iff Socket.weight ?_ rfl hps
    rintro items ps rfl
    have hle := Socket.length_le_weight (ps.map Piece.item)
    rw [List.length_map] at hle
    omega

def emptyReply (requestId : UInt32) : Request := ⟨msgResponse, requestId, [0x7b, 0x7d], by decide⟩

/-- The first frame comes in two pieces and the second in one. -/
theorem frames_received_iff_cut :
    let ps := pieceOf ((emptyReply 1).encode.take 5) ++ pieceOf ((emptyReply 1).encode.drop 5) ++
      pieceOf (emptyReply 2).encode
    trace TlsClient.frameCall ⟨[], ps.map Piece.record, 0⟩ [(), ()] =
        [some (msgResponse, [0x7b, 0x7d]), some (msgResponse, [0x7b, 0x7d])] ∧
      trace PlainClient.frameCall (ps.map Piece.item) [(), ()] =
        [some (msgResponse, [0x7b, 0x7d]), some (msgResponse, [0x7b, 0x7d])] := by
  intro ps
  have hps : pieceBytes ps = stream [emptyReply 1, emptyReply 2] := by decide +kernel
  have hsep : Separate [emptyReply 1, emptyReply 2] ps := by
    refine separate_cons.mpr ⟨.inr ⟨pieceOf (emptyReply 2).encode, List.suffix_append _ _, ?_⟩,
      separate_cons.mpr ⟨.inr ⟨[], List.nil_suffix, rfl⟩, ?_⟩⟩
    · decide +kernel
    · intro r rest hsuffix
      simp at hsuffix
  have hiff := frames_received_iff hps 0
  have hnone : .eintr ∉ ps := by simp [ps, eintr_notMem_pieceOf]
  exact ⟨(hiff.1 hnone).mpr hsep, hiff.2.mpr hsep⟩

/-- Two frames that come in one piece: the first call takes both off the
transport, and the second waits in vain. -/
theorem frame_lost_joined :
    let pieces := pieceOf (stream [emptyReply 1, emptyReply 2])
    pieceBytes pieces = stream [emptyReply 1, emptyReply 2] ∧
      trace TlsClient.frameCall ⟨[], pieces.map Piece.record, 0⟩ [(), ()] =
        [some (msgResponse, [0x7b, 0x7d]), none] ∧
      trace PlainClient.frameCall (pieces.map Piece.item) [(), ()] =
        [some (msgResponse, [0x7b, 0x7d]), none] := by
  decide +kernel

end LinuxMiniProjects.Gateway
