import PulSeed.Lib.InetAddress

/-!
# Fetching over HTTP (`tools/network/HttpFetchTool/HttpFetchTool.ts`)

The tool asks for a URL and follows up to five redirects. For every hop it resolves the host,
refuses the URL when one of the addresses is an internal one, and pins the connection to the
first. `isBlockedAddress` reads an address as a text.

- `fetch_safe`: **every request is pinned to an address of its hop that is not blocked, at most
  six requests are made; whether an IPv6 address is blocked depends on its 128 bits alone, and a
  mapped, NAT64 or 6to4 address is blocked exactly when its IPv4 address is.**

The answers of the name service and of the servers are arbitrary, and so is how a location is
resolved against a URL. Headers, limits and the body of an answer are left out.
-/

namespace PulSeed.HttpFetchTool

open InetAddress

/-! ## Reading addresses -/

def isWhiteSpace (c : Char) : Bool :=
  [9, 10, 11, 12, 13, 32, 0xA0, 0x1680, 0x2028, 0x2029, 0x202F, 0x205F, 0x3000, 0xFEFF].contains
    c.toNat || (0x2000 ≤ c.toNat && c.toNat ≤ 0x200A)

/-- The digits at the start of a text, as a number. -/
def leadingDigits (text : List Char) : Option ℕ :=
  let digits := text.takeWhile Char.isDigit
  if digits = [] then none
  else some (digits.foldl (fun n c => 10 * n + (c.toNat - '0'.toNat)) 0)

/-- `Number.parseInt(text, 10)`, `none` when it is not a number. -/
def parseInt (text : List Char) : Option ℤ :=
  match text.dropWhile isWhiteSpace with
  | '-' :: rest => (leadingDigits rest).map fun n => -(n : ℤ)
  | '+' :: rest => (leadingDigits rest).map fun n => (n : ℤ)
  | rest => (leadingDigits rest).map fun n => (n : ℤ)

def parseOctet (part : List Char) : Option ℕ :=
  (parseInt part).bind fun octet => if octet < 0 || 255 < octet then none else some octet.toNat

/-- `parseIPv4`. -/
def parseIPv4 (address : List Char) : Option (List ℕ) :=
  let parts := address.splitOn '.'
  if parts.length ≠ 4 then none else parts.mapM parseOctet

/-- `formatIPv4`. -/
def formatIPv4 (octets : List ℕ) : List Char := dotted octets

/-- `/^[0-9a-f]{1,4}$/.test(segment)`. -/
def isHexSegment (segment : List Char) : Bool :=
  segment ≠ [] && segment.length ≤ 4 && segment.all lowerHexDigits.contains

/-- The hextets of a segment. -/
def parseSegment (segment : List Char) : Option (List ℕ) :=
  if segment.contains '.' then
    (parseIPv4 segment).map fun octets =>
      [octets.getD 0 0 <<< 8 ||| octets.getD 1 0, octets.getD 2 0 <<< 8 ||| octets.getD 3 0]
  else if isHexSegment segment then some [ofHex segment]
  else none

/-- `parsePart`. -/
def parsePart (part : List Char) : Option (List ℕ) :=
  if part = [] then some []
  else ((part.splitOn ':').mapM parseSegment).map List.flatten

/-- The bytes of hextets, when there are eight of them. -/
def hextetBytes (hextets : List ℕ) : Option (List ℕ) :=
  if hextets.length ≠ 8 || hextets.any (0xffff < ·) then none
  else some (hextets.flatMap fun hextet => [hextet >>> 8 &&& 0xff, hextet &&& 0xff])

/-- `parseIPv6Bytes`. -/
def parseIPv6Bytes (address : List Char) : Option (List ℕ) :=
  let withoutZone := ((toLowerCase address).splitOn '%').headD []
  match splitPair withoutZone with
  | [whole] => (parsePart whole).bind hextetBytes
  | [first, second] =>
    match parsePart first, parsePart second with
    | some head, some tail =>
      if 8 < head.length + tail.length then none
      else hextetBytes (head ++ List.replicate (8 - head.length - tail.length) 0 ++ tail)
    | _, _ => none
  | _ => none

/-- `ipv4FromBytes`. -/
def ipv4FromBytes (bytes : List ℕ) (offset : ℕ) : List Char :=
  formatIPv4 ((bytes.drop offset).take 4)

/-- `isZeroSlice`. -/
def isZeroSlice (bytes : List ℕ) (start stop : ℕ) : Bool :=
  ((bytes.take stop).drop start).all (· = 0)

/-! ## Blocked addresses -/

/-- The IPv4 addresses that are blocked. -/
def isBlockedIPv4 (octets : List ℕ) : Bool :=
  let a := octets.getD 0 0
  let b := octets.getD 1 0
  let c := octets.getD 2 0
  if a = 0 || a = 10 || a = 127 then true
  else if a = 100 && 64 ≤ b && b ≤ 127 then true
  else if a = 169 && b = 254 then true
  else if a = 172 && 16 ≤ b && b ≤ 31 then true
  else if a = 192 && b = 0 then true
  else if a = 192 && b = 88 && c = 99 then true
  else if a = 192 && b = 168 then true
  else if a = 198 && (b = 18 || b = 19) then true
  else if a = 198 && b = 51 && c = 100 then true
  else if a = 203 && b = 0 && c = 113 then true
  else if 224 ≤ a then true
  else false

/-- The IPv6 addresses that are blocked; an embedded IPv4 address is put to `blocked`. -/
def isBlockedIPv6 (blocked : List Char → Bool) (bytes : List ℕ) : Bool :=
  let byte := fun n => bytes.getD n 0
  if bytes.all (· = 0) then true -- ::/128
  else if isZeroSlice bytes 0 15 && byte 15 = 1 then true -- ::1/128
  else if isZeroSlice bytes 0 10 && byte 10 = 0xff && byte 11 = 0xff then
    blocked (ipv4FromBytes bytes 12) -- ::ffff:0:0/96
  else if byte 0 = 0x00 && byte 1 = 0x64 && byte 2 = 0xff && byte 3 = 0x9b &&
      isZeroSlice bytes 4 12 then
    blocked (ipv4FromBytes bytes 12) -- 64:ff9b::/96 NAT64
  else if byte 0 = 0x20 && byte 1 = 0x02 then
    blocked (ipv4FromBytes bytes 2) -- 2002::/16 6to4
  else if byte 0 &&& 0xfe = 0xfc then true -- fc00::/7
  else if byte 0 = 0xfe && byte 1 &&& 0xc0 = 0x80 then true -- fe80::/10
  else if byte 0 = 0xfe && byte 1 &&& 0xc0 = 0xc0 then true -- fec0::/10
  else if byte 0 = 0xff then true -- ff00::/8
  else if byte 0 = 0x20 && byte 1 = 0x01 && byte 2 = 0x0d && byte 3 = 0xb8 then true -- 2001:db8::/32
  else false

/-- `text.replace(/^\[/, "").replace(/\]$/, "")`. -/
def stripBrackets (text : List Char) : List Char :=
  let opened := if text.head? = some '[' then text.tail else text
  if opened.getLast? = some ']' then opened.dropLast else opened

/-- The body of `isBlockedAddress`, with what it calls for an embedded IPv4 address. -/
def isBlockedAddressWith (blocked : List Char → Bool) (address : List Char) : Bool :=
  let normalizedAddress := stripBrackets (toLowerCase address)
  if isIP normalizedAddress = 4 then
    match parseIPv4 normalizedAddress with
    | none => false
    | some octets => isBlockedIPv4 octets
  else if isIP normalizedAddress = 6 then
    match parseIPv6Bytes normalizedAddress with
    | none => false
    | some bytes => isBlockedIPv6 blocked bytes
  else false

/-- `isBlockedAddress`. It calls itself only for IPv4 addresses, and these call nothing
(`isBlockedAddress_eq`). -/
def isBlockedAddress : List Char → Bool :=
  isBlockedAddressWith (isBlockedAddressWith fun _ => false)

/-! ## Requests -/

/-- `URL`, what the tool reads of it. -/
structure URL where
  protocol : String
  hostname : List Char
  href : String

/-- `ValidatedDestination`. -/
structure ValidatedDestination where
  address : List Char
  family : ℕ

/-- `HttpFetchTransportRequest`, without what is the same for all hops. -/
structure HttpFetchTransportRequest where
  url : URL
  destination : ValidatedDestination

/-- `HttpFetchOutput`: the status, and the header `location`. -/
structure HttpFetchOutput where
  statusCode : ℕ
  location : Option String := none

/-- What the tool is connected to: name service and servers answer each hop as they like, and
locations are resolved against URLs. -/
structure Network where
  lookup : ℕ → List Char → Except String (List (List Char))
  transport : ℕ → HttpFetchTransportRequest → Except String HttpFetchOutput
  resolveLocation : String → URL → Except String URL

/-- `resolveHostAddresses`. -/
def resolveHostAddresses (lookup : List Char → Except String (List (List Char)))
    (hostname : List Char) : Except String (List (List Char)) :=
  let normalizedHostname := stripBrackets hostname
  if isIP normalizedHostname ≠ 0 then .ok [normalizedHostname] else lookup normalizedHostname

/-- `validateDestination`. -/
def validateDestination (lookup : List Char → Except String (List (List Char))) (url : URL) :
    Except String ValidatedDestination :=
  if url.protocol ≠ "http:" ∧ url.protocol ≠ "https:" then
    .error s!"Unsupported URL protocol: {url.protocol}"
  else
    match resolveHostAddresses lookup url.hostname with
    | .error message => .error message
    | .ok [] => .error s!"Unable to resolve host: {url.href}"
    | .ok (address :: addresses) =>
      if (address :: addresses).any isBlockedAddress then
        .error s!"Fetching from internal or private address: {url.href}"
      else
        let family := isIP address
        if family ≠ 4 ∧ family ≠ 6 then .error s!"Unable to resolve host: {url.href}"
        else .ok { address, family }

/-- `MAX_REDIRECTS`. -/
def MAX_REDIRECTS : ℕ := 5

/-- `isRedirect`. -/
def isRedirect (statusCode : ℕ) : Bool := [301, 302, 303, 307, 308].contains statusCode

variable (network : Network)

/-- The loop of `call`, with the number of rounds that are left: the requests that it makes, and
the answer of the last or the error. -/
def follow (inputUrl : String) : ℕ → ℕ → URL →
    List HttpFetchTransportRequest × Except String HttpFetchOutput
  | 0, _, _ => ([], .error s!"HTTP fetch failed: {inputUrl}")
  | rounds + 1, redirects, currentUrl =>
    match validateDestination (network.lookup redirects) currentUrl with
    | .error message => ([], .error message)
    | .ok destination =>
      let request := { url := currentUrl, destination }
      match network.transport redirects request with
      | .error message => ([request], .error message)
      | .ok response =>
        match response.location.filter (· ≠ "") with
        | none => ([request], .ok response)
        | some location =>
          if !isRedirect response.statusCode then ([request], .ok response)
          else if redirects = MAX_REDIRECTS then
            ([request], .error s!"Too many redirects fetching {inputUrl}")
          else
            match network.resolveLocation location currentUrl with
            | .error message => ([request], .error message)
            | .ok url =>
              let rest := follow inputUrl rounds (redirects + 1) url
              (request :: rest.1, rest.2)

/-- `call`, for the text of its URL and the URL. -/
def call (inputUrl : String) (url : URL) :
    List HttpFetchTransportRequest × Except String HttpFetchOutput :=
  follow network inputUrl (MAX_REDIRECTS + 1) 0 url

/-! ## IPv4 addresses -/

theorem parseOctet_decimal {n : ℕ} (h : n < 256) : parseOctet (decimal n) = some n := by
  have hall : ∀ n < 256, parseOctet (decimal n) = some n := by decide +kernel
  exact hall n h

theorem parseIPv4_dotted {a b c d : ℕ} (ha : a < 256) (hb : b < 256) (hc : c < 256)
    (hd : d < 256) : parseIPv4 (dotted [a, b, c, d]) = some [a, b, c, d] := by
  unfold parseIPv4
  rw [splitOn_dotted (List.cons_ne_nil _ _)]
  simp [parseOctet_decimal, ha, hb, hc, hd]

theorem stripBrackets_eq {text : List Char} (h : ∀ c ∈ text, c ≠ '[' ∧ c ≠ ']') :
    stripBrackets text = text := by
  unfold stripBrackets
  have hhead : text.head? ≠ some '[' := fun hc => (h '[' (List.mem_of_head? hc)).1 rfl
  have hlast : text.getLast? ≠ some ']' := fun hc => (h ']' (List.mem_of_getLast? hc)).2 rfl
  rw [if_neg hhead]
  dsimp only
  rw [if_neg hlast]

theorem stripBrackets_bracketed (text : List Char) :
    stripBrackets ('[' :: text ++ [']']) = text := by
  unfold stripBrackets
  simp

theorem normalize_dotted {a b c d : ℕ} (ha : a < 256) (hb : b < 256) (hc : c < 256)
    (hd : d < 256) :
    stripBrackets (toLowerCase (dotted [a, b, c, d])) = dotted [a, b, c, d] := by
  rw [toLowerCase_dotted]
  refine stripBrackets_eq fun ch hch => ?_
  have hpart := (isPartChar_dotted ch hch).1
  constructor
  · rintro rfl
    exact absurd hpart (by decide)
  · rintro rfl
    exact absurd hpart (by decide)

/-- An IPv4 address is looked up in the list of the blocked ones. -/
theorem isBlockedAddressWith_dotted (blocked : List Char → Bool) {a b c d : ℕ} (ha : a < 256)
    (hb : b < 256) (hc : c < 256) (hd : d < 256) :
    isBlockedAddressWith blocked (dotted [a, b, c, d]) = isBlockedIPv4 [a, b, c, d] := by
  unfold isBlockedAddressWith
  rw [normalize_dotted ha hb hc hd]
  dsimp only
  rw [if_pos (isIP_dotted ha hb hc hd), parseIPv4_dotted ha hb hc hd]

/-! ## IPv6 addresses -/

theorem isHexSegment_lower {text : List Char} {value : ℕ} (h : Hextet text value) :
    isHexSegment (toLowerCase text) = true := by
  have hlower := h.lower
  unfold isHexSegment
  rw [Bool.and_eq_true, Bool.and_eq_true]
  refine ⟨⟨decide_eq_true hlower.nonempty, decide_eq_true hlower.short⟩, ?_⟩
  refine List.all_eq_true.mpr fun c hc => ?_
  obtain ⟨d, hd, rfl⟩ := List.mem_map.mp hc
  exact (hexDigit_facts (h.digits d hd)).2.2.1

theorem parseSegment_hextet {text : List Char} {value : ℕ} (h : Hextet text value) :
    parseSegment (toLowerCase text) = some [value] := by
  have hdot : (toLowerCase text).contains '.' = false :=
    Bool.eq_false_iff.mpr fun hc => h.lower.ne_dot (List.contains_iff_mem.mp hc)
  unfold parseSegment
  rw [hdot, if_neg Bool.false_ne_true, if_pos (isHexSegment_lower h), ← h.lower.value]

theorem parseSegment_dotted {a b c d : ℕ} (ha : a < 256) (hb : b < 256) (hc : c < 256)
    (hd : d < 256) :
    parseSegment (dotted [a, b, c, d]) = some [a * 256 + b, c * 256 + d] := by
  have hdot : (dotted [a, b, c, d]).contains '.' = true := by
    refine List.contains_iff_mem.mpr ?_
    unfold dotted
    rw [List.map_cons, List.map_cons, List.intercalate_cons_cons]
    simp
  unfold parseSegment
  rw [hdot, if_pos rfl, parseIPv4_dotted ha hb hc hd]
  have hor : ∀ m n, n < 256 → m <<< 8 ||| n = m * 256 + n := by
    intro m n hn
    rw [← Nat.shiftLeft_add_eq_or_of_lt hn, Nat.shiftLeft_eq]
  simp [hor, hb, hd]

/-- **The segments of a part give its hextets.** -/
theorem parseSegments_part {quad : Bool} {text : List Char} {values : List ℕ}
    (h : Part quad text values) : ∃ parts,
      ((toLowerCase text).splitOn ':').mapM parseSegment = some parts ∧ parts.flatten = values := by
  induction h with
  | @hextet text value h =>
    refine ⟨[[value]], ?_, rfl⟩
    rw [List.splitOn_eq_singleton h.lower.ne_colon]
    simp [parseSegment_hextet h]
  | @ipv4 a b c d _ ha hb hc hd =>
    refine ⟨[[a * 256 + b, c * 256 + d]], ?_, rfl⟩
    rw [toLowerCase_dotted,
      List.splitOn_eq_singleton dotted_ne_colon]
    simp [parseSegment_dotted ha hb hc hd]
  | @cons text rest value values h _ ih =>
    obtain ⟨parts, hparts, hflatten⟩ := ih
    refine ⟨[value] :: parts, ?_, ?_⟩
    · rw [toLowerCase_cons_append text rest ':' rfl,
        List.splitOn_append_cons_self_of_not_mem h.lower.ne_colon, List.mapM_cons,
        parseSegment_hextet h, hparts]
      rfl
    · rw [List.flatten_cons, hflatten]
      rfl

theorem parsePart_side {quad : Bool} {text : List Char} {values : List ℕ}
    (h : Side quad text values) : parsePart (toLowerCase text) = some values := by
  unfold parsePart
  rcases h with ⟨rfl, rfl⟩ | h
  · rfl
  · obtain ⟨c, rest, heq, -⟩ := h.lower.head
    obtain ⟨parts, hparts, hflatten⟩ := parseSegments_part h
    rw [if_neg (heq ▸ List.cons_ne_nil _ _), hparts, Option.map_some, hflatten]

/-- The bytes of hextets. -/
def bytesOf (hextets : List ℕ) : List ℕ :=
  hextets.flatMap fun hextet => [hextet >>> 8 &&& 0xff, hextet &&& 0xff]

theorem hextetBytes_eq {hextets : List ℕ} (hlength : hextets.length = 8)
    (hlt : ∀ v ∈ hextets, v < 65536) : hextetBytes hextets = some (bytesOf hextets) := by
  unfold hextetBytes
  rw [if_neg]
  · rfl
  · rw [Bool.or_eq_true, List.any_eq_true]
    rintro (hne | ⟨v, hv, hlarge⟩)
    · exact of_decide_eq_true hne hlength
    · have hsmall := hlt v hv
      have hlarge := of_decide_eq_true hlarge
      omega

/-- **The parser reads every written form.** -/
theorem parseIPv6Bytes_eq {text : List Char} {values : List ℕ} (h : Spells text values) :
    parseIPv6Bytes text = some (bytesOf values) := by
  obtain ⟨hlength, hlt⟩ := h.hextets
  have hbytes := hextetBytes_eq hlength hlt
  -- what is left of the text without its zone
  have hzone : ∃ form, Form form values ∧
      ((toLowerCase text).splitOn '%').headD [] = toLowerCase form := by
    cases h with
    | plain hform =>
      refine ⟨text, hform, ?_⟩
      rw [List.splitOn_eq_singleton hform.lower.ne_percent]
      rfl
    | @zoned form zone _ hform _ _ =>
      refine ⟨form, hform, ?_⟩
      rw [toLowerCase_cons_append form zone '%' rfl,
        List.splitOn_append_cons_self_of_not_mem hform.lower.ne_percent]
      rfl
  obtain ⟨form, hform, hwithout⟩ := hzone
  unfold parseIPv6Bytes
  rw [hwithout]
  dsimp only
  cases hform with
  | full hpart _ =>
    rw [hpart.lower.splitPair_self]
    dsimp only
    rw [parsePart_side (.inr hpart)]
    exact hbytes
  | @compressed head tail before after hhead htail hshort =>
    rw [toLowerCase_cons_append head (':' :: tail) ':' rfl]
    rw [show toLowerCase (':' :: tail) = ':' :: toLowerCase tail from rfl]
    rw [splitPair_compressed hhead.lower htail.lower]
    dsimp only
    rw [parsePart_side hhead, parsePart_side htail]
    dsimp only
    rw [if_neg (by omega), Nat.sub_sub]
    exact hbytes

/-- A text is a written form of an IPv6 address, which may stand in brackets. -/
inductive Written : List Char → List ℕ → Prop where
  | plain {text : List Char} {values : List ℕ} : Spells text values → Written text values
  | bracketed {text : List Char} {values : List ℕ} : Spells text values →
      Written ('[' :: text ++ [']']) values

/-- **Whether an IPv6 address is blocked depends on its bytes.** -/
theorem isBlockedAddressWith_written (blocked : List Char → Bool) {text : List Char}
    {values : List ℕ} (h : Written text values) :
    isBlockedAddressWith blocked text = isBlockedIPv6 blocked (bytesOf values) := by
  have hnormal : ∃ form, Spells form values ∧ stripBrackets (toLowerCase text) = form := by
    cases h with
    | plain h => exact ⟨_, h.lower, stripBrackets_eq h.lower.ne_bracket⟩
    | @bracketed text _ h =>
      refine ⟨_, h.lower, ?_⟩
      rw [toLowerCase_cons_append ('[' :: text) [] ']' rfl]
      exact stripBrackets_bracketed (toLowerCase text)
  obtain ⟨form, hform, heq⟩ := hnormal
  have hsix : isIP form = 6 := isIP_six_iff.mpr ⟨values, hform⟩
  unfold isBlockedAddressWith
  rw [heq]
  dsimp only
  rw [hsix, if_neg (by decide), if_pos rfl, parseIPv6Bytes_eq hform]

/-! ## Embedded IPv4 addresses -/

theorem bytes_pair {m n : ℕ} (hn : n < 256) (hm : m < 256) :
    (m * 256 + n) >>> 8 &&& 0xff = m ∧ (m * 256 + n) &&& 0xff = n := by
  constructor
  · rw [Nat.shiftRight_eq_div_pow, Nat.and_two_pow_sub_one_eq_mod _ 8]
    omega
  · rw [Nat.and_two_pow_sub_one_eq_mod _ 8]
    omega

theorem bytesOf_append (hextets rest : List ℕ) :
    bytesOf (hextets ++ rest) = bytesOf hextets ++ bytesOf rest :=
  List.flatMap_append

theorem bytesOf_quad {a b c d : ℕ} (ha : a < 256) (hb : b < 256) (hc : c < 256) (hd : d < 256)
    (rest : List ℕ) :
    bytesOf ((a * 256 + b) :: (c * 256 + d) :: rest) = a :: b :: c :: d :: bytesOf rest := by
  unfold bytesOf
  rw [List.flatMap_cons, List.flatMap_cons, (bytes_pair hb ha).1, (bytes_pair hb ha).2,
    (bytes_pair hd hc).1, (bytes_pair hd hc).2]
  rfl

/-- The addresses of ::ffff:0:0/96, 64:ff9b::/96 and 2002::/16, with their IPv4 address. -/
inductive Embeds (x y : ℕ) : List ℕ → Prop where
  | mapped : Embeds x y [0, 0, 0, 0, 0, 0xffff, x, y]
  | nat64 : Embeds x y [0x64, 0xff9b, 0, 0, 0, 0, x, y]
  | sixToFour (v₃ v₄ v₅ v₆ v₇ : ℕ) : Embeds x y [0x2002, x, y, v₃, v₄, v₅, v₆, v₇]

/-- **An embedded IPv4 address decides.** -/
theorem isBlockedIPv6_embeds (blocked : List Char → Bool) {a b c d : ℕ} (ha : a < 256)
    (hb : b < 256) (hc : c < 256) (hd : d < 256) {values : List ℕ}
    (h : Embeds (a * 256 + b) (c * 256 + d) values) :
    isBlockedIPv6 blocked (bytesOf values) = blocked (dotted [a, b, c, d]) := by
  cases h with
  | mapped =>
    have hbytes : bytesOf [0, 0, 0, 0, 0, 0xffff, a * 256 + b, c * 256 + d] =
        [0, 0, 0, 0, 0, 0, 0, 0, 0, 0, 0xff, 0xff, a, b, c, d] := by
      calc _ = bytesOf [0, 0, 0, 0, 0, 0xffff] ++ bytesOf [a * 256 + b, c * 256 + d] :=
            bytesOf_append [0, 0, 0, 0, 0, 0xffff] _
        _ = _ := by rw [bytesOf_quad ha hb hc hd []]; rfl
    rw [hbytes]
    simp [isBlockedIPv6, isZeroSlice, ipv4FromBytes, formatIPv4]
  | nat64 =>
    have hbytes : bytesOf [0x64, 0xff9b, 0, 0, 0, 0, a * 256 + b, c * 256 + d] =
        [0, 0x64, 0xff, 0x9b, 0, 0, 0, 0, 0, 0, 0, 0, a, b, c, d] := by
      calc _ = bytesOf [0x64, 0xff9b, 0, 0, 0, 0] ++ bytesOf [a * 256 + b, c * 256 + d] :=
            bytesOf_append [0x64, 0xff9b, 0, 0, 0, 0] _
        _ = _ := by rw [bytesOf_quad ha hb hc hd []]; rfl
    rw [hbytes]
    simp [isBlockedIPv6, isZeroSlice, ipv4FromBytes, formatIPv4]
  | sixToFour v₃ v₄ v₅ v₆ v₇ =>
    have hbytes : bytesOf [0x2002, a * 256 + b, c * 256 + d, v₃, v₄, v₅, v₆, v₇] =
        0x20 :: 0x02 :: a :: b :: c :: d :: bytesOf [v₃, v₄, v₅, v₆, v₇] := by
      calc _ = bytesOf [0x2002] ++ bytesOf [a * 256 + b, c * 256 + d, v₃, v₄, v₅, v₆, v₇] :=
            bytesOf_append [0x2002] _
        _ = _ := by rw [bytesOf_quad ha hb hc hd]; rfl
    rw [hbytes]
    simp [isBlockedIPv6, isZeroSlice, ipv4FromBytes, formatIPv4]

theorem bytesOf_lt (hextets : List ℕ) : ∀ byte ∈ bytesOf hextets, byte < 256 := by
  intro byte hbyte
  obtain ⟨hextet, -, hmem⟩ := List.mem_flatMap.mp hbyte
  have hland : ∀ n, n &&& 0xff < 256 := fun n => by
    rw [Nat.and_two_pow_sub_one_eq_mod n 8]
    exact Nat.mod_lt _ (by decide)
  rcases List.mem_cons.mp hmem with rfl | hmem
  · exact hland _
  · rw [List.mem_singleton.mp hmem]
    exact hland _

/-- What the body calls is called for IPv4 addresses only, and for these it does not matter. -/
theorem isBlockedIPv6_congr (f g : List Char → Bool) {hextets : List ℕ}
    (h : hextets.length = 8) :
    isBlockedIPv6 (isBlockedAddressWith f) (bytesOf hextets) =
      isBlockedIPv6 (isBlockedAddressWith g) (bytesOf hextets) := by
  have hembedded : ∀ offset ≤ 12, isBlockedAddressWith f (ipv4FromBytes (bytesOf hextets) offset) =
      isBlockedAddressWith g (ipv4FromBytes (bytesOf hextets) offset) := by
    intro offset hoffset
    have hlength : (bytesOf hextets).length = 16 := by
      unfold bytesOf
      rw [List.length_flatMap]
      simp [h]
    have hfour : (((bytesOf hextets).drop offset).take 4).length = 4 := by
      rw [List.length_take, List.length_drop, hlength]
      omega
    obtain ⟨a, b, c, d, hquad⟩ := List.length_eq_four.mp hfour
    have hlt : ∀ n ∈ [a, b, c, d], n < 256 := fun n hn =>
      bytesOf_lt hextets n (List.mem_of_mem_drop (List.mem_of_mem_take (hquad ▸ hn)))
    unfold ipv4FromBytes formatIPv4
    rw [hquad, isBlockedAddressWith_dotted f (hlt a (by simp)) (hlt b (by simp))
        (hlt c (by simp)) (hlt d (by simp)),
      isBlockedAddressWith_dotted g (hlt a (by simp)) (hlt b (by simp)) (hlt c (by simp))
        (hlt d (by simp))]
  unfold isBlockedIPv6
  dsimp only
  rw [hembedded 12 le_rfl, hembedded 2 (by decide)]

/-- **The recursion of `isBlockedAddress`**, as the source has it. -/
theorem isBlockedAddress_eq (address : List Char) :
    isBlockedAddress address = isBlockedAddressWith isBlockedAddress address := by
  by_cases hsix : isIP (stripBrackets (toLowerCase address)) = 6
  · obtain ⟨values, hspells⟩ := isIP_six_iff.mp hsix
    have hbytes : ∀ f, isBlockedAddressWith f address = isBlockedIPv6 f (bytesOf values) := by
      intro f
      unfold isBlockedAddressWith
      dsimp only
      rw [hsix, if_neg (by decide), if_pos rfl, parseIPv6Bytes_eq hspells]
    unfold isBlockedAddress
    rw [hbytes, hbytes]
    exact isBlockedIPv6_congr _ _ hspells.hextets.1
  · have hfour : ∀ f, isBlockedAddressWith f address =
        isBlockedAddressWith (fun _ => false) address := by
      intro f
      unfold isBlockedAddressWith
      dsimp only
      rw [if_neg hsix, if_neg hsix]
    rw [hfour isBlockedAddress]
    exact hfour _

theorem Written.hextets {text : List Char} {values : List ℕ} (h : Written text values) :
    ∃ form, Spells form values := by
  cases h with
  | plain h => exact ⟨_, h⟩
  | bracketed h => exact ⟨_, h⟩

/-! ## The requests of a call -/

/-- A destination is an address of its host, and none of these is blocked. -/
theorem validateDestination_ok {lookup : List Char → Except String (List (List Char))} {url : URL}
    {destination : ValidatedDestination}
    (h : validateDestination lookup url = .ok destination) :
    ∃ addresses, resolveHostAddresses lookup url.hostname = .ok addresses ∧
      destination.address ∈ addresses ∧
      ∀ address ∈ addresses, isBlockedAddress address = false := by
  unfold validateDestination at h
  split at h
  · cases h
  split at h
  · cases h
  · cases h
  · next address addresses hresolve =>
    split at h
    · cases h
    · next hblocked =>
      dsimp only at h
      split at h
      · cases h
      · cases h
        refine ⟨_, hresolve, List.mem_cons_self, fun other hother => ?_⟩
        refine Bool.eq_false_iff.mpr fun hother' => hblocked ?_
        exact List.any_eq_true.mpr ⟨other, hother, hother'⟩

/-- A round makes one request at most, to the destination of its hop; the others follow it. -/
theorem follow_succ (network : Network) (inputUrl : String) (rounds redirects : ℕ) (url : URL) :
    (follow network inputUrl (rounds + 1) redirects url).1 = [] ∨
      ∃ destination rest, validateDestination (network.lookup redirects) url = .ok destination ∧
        (follow network inputUrl (rounds + 1) redirects url).1 = { url, destination } :: rest ∧
        (rest = [] ∨ ∃ next, rest = (follow network inputUrl rounds (redirects + 1) next).1) := by
  rw [follow]
  cases hvalid : validateDestination (network.lookup redirects) url with
  | error message => exact .inl rfl
  | ok destination =>
    dsimp only
    right
    cases network.transport redirects { url, destination } with
    | error message => exact ⟨destination, [], rfl, rfl, .inl rfl⟩
    | ok response =>
      dsimp only
      cases response.location.filter (· ≠ "") with
      | none => exact ⟨destination, [], rfl, rfl, .inl rfl⟩
      | some location =>
        dsimp only
        split
        · exact ⟨destination, [], rfl, rfl, .inl rfl⟩
        split
        · exact ⟨destination, [], rfl, rfl, .inl rfl⟩
        split
        · exact ⟨destination, [], rfl, rfl, .inl rfl⟩
        · next next _ => exact ⟨destination, _, rfl, rfl, .inr ⟨next, rfl⟩⟩

theorem follow_length (network : Network) (inputUrl : String) (rounds redirects : ℕ) (url : URL) :
    (follow network inputUrl rounds redirects url).1.length ≤ rounds := by
  induction rounds generalizing redirects url with
  | zero => exact le_rfl
  | succ rounds ih =>
    rcases follow_succ network inputUrl rounds redirects url with
      hnone | ⟨destination, rest, -, heq, hrest | ⟨next, hrest⟩⟩
    · rw [hnone]
      exact Nat.zero_le _
    · rw [heq, hrest]
      exact Nat.succ_le_succ (Nat.zero_le _)
    · rw [heq, hrest]
      exact Nat.succ_le_succ (ih (redirects + 1) next)

/-- **Every request goes to the destination that was validated for its hop.** -/
theorem follow_validated (network : Network) (inputUrl : String) (rounds redirects : ℕ) (url : URL)
    {k : ℕ} {request : HttpFetchTransportRequest}
    (h : (follow network inputUrl rounds redirects url).1[k]? = some request) :
    validateDestination (network.lookup (redirects + k)) request.url =
      .ok request.destination := by
  induction rounds generalizing redirects url k with
  | zero => cases h
  | succ rounds ih =>
    rcases follow_succ network inputUrl rounds redirects url with
      hnone | ⟨destination, rest, hvalid, heq, hrest⟩
    · rw [hnone] at h
      cases h
    · rw [heq] at h
      cases k with
      | zero =>
        obtain rfl := Option.some.inj h
        exact hvalid
      | succ k =>
        rw [List.getElem?_cons_succ] at h
        rcases hrest with rfl | ⟨next, rfl⟩
        · cases h
        · rw [show redirects + (k + 1) = redirects + 1 + k by omega]
          exact ih (redirects + 1) next h

/-! ## What the tool promises -/

/-- The promises of `call` and of `isBlockedAddress`. -/
structure FetchSafe (network : Network) (inputUrl : String) (url : URL) : Prop where
  requests : (call network inputUrl url).1.length ≤ 6
  /-- The request of a hop goes to an address that its host has in that hop; none of the
  addresses that it has is blocked. -/
  pinned : ∀ (k : ℕ) (request : HttpFetchTransportRequest),
    (call network inputUrl url).1[k]? = some request →
    ∃ addresses, resolveHostAddresses (network.lookup k) request.url.hostname = .ok addresses ∧
      request.destination.address ∈ addresses ∧
      ∀ address ∈ addresses, isBlockedAddress address = false
  /-- The texts that the platform takes for IPv6 addresses are written forms of one. -/
  written : ∀ text, isIP text = 6 → ∃ hextets, Written text hextets
  /-- Two written forms of one address get the same verdict. -/
  spelling : ∀ text text' hextets hextets', Written text hextets → Written text' hextets' →
    address hextets = address hextets' → isBlockedAddress text = isBlockedAddress text'
  /-- An address that embeds an IPv4 address gets the verdict of that. -/
  embedded : ∀ text hextets a b c d, a < 256 → b < 256 → c < 256 → d < 256 →
    Written text hextets → Embeds (a * 256 + b) (c * 256 + d) hextets →
    isBlockedAddress text = isBlockedAddress (formatIPv4 [a, b, c, d])

/-- **No request goes to a blocked address, and the spelling of an address does not matter.** -/
theorem fetch_safe (network : Network) (inputUrl : String) (url : URL) :
    FetchSafe network inputUrl url := by
  constructor
  · exact follow_length network inputUrl (MAX_REDIRECTS + 1) 0 url
  · intro k request hrequest
    have hvalid := follow_validated network inputUrl (MAX_REDIRECTS + 1) 0 url hrequest
    rw [Nat.zero_add] at hvalid
    exact validateDestination_ok hvalid
  · intro text htext
    obtain ⟨hextets, hspells⟩ := isIP_six_iff.mp htext
    exact ⟨hextets, .plain hspells⟩
  · intro text text' hextets hextets' h h' haddress
    obtain ⟨form, hform⟩ := h.hextets
    obtain ⟨form', hform'⟩ := h'.hextets
    have hsame : hextets = hextets' := hform.address_inj hform' haddress
    unfold isBlockedAddress
    rw [isBlockedAddressWith_written _ h, isBlockedAddressWith_written _ h', hsame]
  · intro text hextets a b c d ha hb hc hd hwritten hembeds
    unfold isBlockedAddress formatIPv4
    rw [isBlockedAddressWith_written _ hwritten, isBlockedIPv6_embeds _ ha hb hc hd hembeds,
      isBlockedAddressWith_dotted _ ha hb hc hd, isBlockedAddressWith_dotted _ ha hb hc hd]

example : isBlockedAddress "[0:0::FFFF:7F00:1]".toList = true ∧
    isBlockedAddress "::ffff:8.8.8.8%eth0".toList = false := by decide +kernel

end PulSeed.HttpFetchTool
