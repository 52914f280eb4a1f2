import AptUsbtrx.Model.Fops

/-! # Host timestamps in whole records

When the bytes that were read start with a record, `apt_usbtrx_parse_rbmsg` replaces the
timestamp of each record in them and nothing else. -/

namespace AptUsbtrx

open Memory

/-- The records with `ts` in the place of their timestamps. -/
def stamped (ts : List UInt8) (records : List (List UInt8)) : List UInt8 :=
  records.flatMap fun record => ts ++ record.drop timestampSize

/-- The byte at `k` of the stream of the records belongs to a timestamp. -/
def timestampAt : List (List UInt8) → ℕ → Bool
  | [], _ => false
  | record :: records, k =>
      if k < record.length then decide (k < timestampSize)
      else timestampAt records (k - record.length)

@[simp] theorem length_hostTimestamp (devTimeUs : UInt64) :
    (hostTimestamp devTimeUs).length = timestampSize := rfl

namespace UniqueFunction

variable {func : UniqueFunction} {record : List UInt8}

/-- A record has a byte behind its timestamp. -/
theorem IsRecord.length_bounds (h : func.IsRecord record) :
    timestampSize < record.length ∧ record.length ≤ maxPayload := by
  rw [IsRecord] at h
  have := func.size_range record
  omega

/-- A size that is no error lies in the range of the sizes. -/
theorem size_bounds {p : List UInt8} (h : 0 ≤ func.getReadPayloadSize p) :
    timestampSize < func.getReadPayloadSize p ∧ func.getReadPayloadSize p ≤ maxPayload :=
  (func.size_range p).resolve_left (by omega)

end UniqueFunction

/-! ### Stamped records -/

theorem length_stamped {ts : List UInt8} (hts : ts.length = timestampSize)
    {records : List (List UInt8)} (hrecords : ∀ r ∈ records, timestampSize < r.length) :
    (stamped ts records).length = records.flatten.length := by
  induction records with
  | nil => rfl
  | cons r records ih =>
      have hr := hrecords r List.mem_cons_self
      have ih := ih fun r hr => hrecords r (List.mem_cons_of_mem _ hr)
      rw [stamped, List.flatMap_cons, List.length_append, List.length_append, List.length_drop,
        hts, List.flatten_cons, List.length_append, ← ih, stamped]
      omega

/-- Outside of the timestamps nothing changes. -/
theorem getElem?_stamped {ts : List UInt8} (hts : ts.length = timestampSize)
    {records : List (List UInt8)} (hrecords : ∀ r ∈ records, timestampSize < r.length) {k : ℕ}
    (hk : timestampAt records k = false) : (stamped ts records)[k]? = records.flatten[k]? := by
  induction records generalizing k with
  | nil => rfl
  | cons r records ih =>
      have hr := hrecords r List.mem_cons_self
      have hlen : (ts ++ r.drop timestampSize).length = r.length := by
        rw [List.length_append, List.length_drop, hts]
        omega
      rw [stamped, List.flatMap_cons, List.flatten_cons]
      rw [timestampAt] at hk
      by_cases hin : k < r.length
      · rw [if_pos hin, decide_eq_false_iff_not, Nat.not_lt, ← hts] at hk
        rw [List.getElem?_append_left (by omega), List.getElem?_append_left hin,
          List.getElem?_append_right hk, List.getElem?_drop, hts]
        congr 1
        omega
      · rw [if_neg hin] at hk
        rw [List.getElem?_append_right (by omega), List.getElem?_append_right (by omega), hlen]
        exact ih (fun r hr => hrecords r (List.mem_cons_of_mem _ hr)) hk

theorem timestampAt_append {done : List (List UInt8)} (pending : List (List UInt8)) (k : ℕ) :
    timestampAt (done ++ pending) (done.flatten.length + k) = timestampAt pending k := by
  induction done with
  | nil => rw [List.nil_append, List.flatten_nil, List.length_nil, Nat.zero_add]
  | cons r done ih =>
      rw [List.cons_append, timestampAt, List.flatten_cons, List.length_append, if_neg (by omega),
        ← ih]
      congr 1
      omega

/-- Records that come later leave the timestamps where they are. -/
theorem timestampAt_append_of_eq_true {records : List (List UInt8)} (later : List (List UInt8))
    {k : ℕ} (h : timestampAt records k = true) : timestampAt (records ++ later) k = true := by
  induction records generalizing k with
  | nil => cases h
  | cons r records ih =>
      rw [timestampAt] at h
      rw [List.cons_append, timestampAt]
      by_cases hin : k < r.length
      · rwa [if_pos hin] at h ⊢
      · rw [if_neg hin] at h ⊢
        exact ih h

/-! ### The loop -/

/-- A read of `n` bytes that start with `records` and cuts one of them in front of its ninth
byte finds a size in what is left in `rx_rbmsg` behind the cut. -/
def CutSized (func : UniqueFunction) (rbmsg : List UInt8) (payload : ℕ)
    (records : List (List UInt8)) (n : ℕ) : Prop :=
  ∀ done cut rest, records = done ++ cut :: rest → done.flatten.length < n →
    n ≤ done.flatten.length + timestampSize →
      0 ≤ func.getReadPayloadSize (rbmsg.drop (payload + done.flatten.length))

theorem getReadPayloadSize_congr {func : UniqueFunction} {rbmsg rbmsg' : List UInt8} {off : ℕ}
    (h : rbmsg'[off + timestampSize]? = rbmsg[off + timestampSize]?) :
    func.getReadPayloadSize (rbmsg'.drop off) = func.getReadPayloadSize (rbmsg.drop off) := by
  apply func.size_eq
  rw [byteAt_drop, byteAt_drop, byteAt, byteAt, List.getD_eq_getElem?_getD,
    List.getD_eq_getElem?_getD, h]

theorem parseRbmsgLoop_done (func : UniqueFunction) (tsMode : TimestampMode) (devTimeUs : UInt64)
    (fuel payload : ℕ) {remain : ℤ} (h : remain ≤ 0) (rbmsg : List UInt8) :
    parseRbmsgLoop func tsMode devTimeUs fuel payload remain rbmsg = (.success, rbmsg) := by
  rw [parseRbmsgLoop.eq_def, if_neg (by omega)]

theorem parseRbmsgLoop_host (func : UniqueFunction) (devTimeUs : UInt64) (fuel payload : ℕ)
    {remain : ℤ} (h : 0 < remain) {rbmsg : List UInt8}
    (hsize : 0 ≤ func.getReadPayloadSize (rbmsg.drop payload)) :
    parseRbmsgLoop func .host devTimeUs (fuel + 1) payload remain rbmsg =
      if remain - func.getReadPayloadSize (rbmsg.drop payload) < 0 then
        (.success, overwrite rbmsg payload (hostTimestamp devTimeUs))
      else
        parseRbmsgLoop func .host devTimeUs fuel
          (payload + (func.getReadPayloadSize (rbmsg.drop payload)).toNat)
          (remain - func.getReadPayloadSize (rbmsg.drop payload))
          (overwrite rbmsg payload (hostTimestamp devTimeUs)) := by
  have hbounds := func.size_bounds hsize
  have hsame : func.getReadPayloadSize ((overwrite rbmsg payload (hostTimestamp devTimeUs)).drop
      payload) = func.getReadPayloadSize (rbmsg.drop payload) := by
    apply getReadPayloadSize_congr
    rw [getElem?_overwrite, length_hostTimestamp, if_neg (by omega)]
  have hmax : ¬ func.getReadPayloadSize (rbmsg.drop payload) >
      (msgLengthToPayload cmdMaxLength : ℕ) := Int.not_lt.mpr hbounds.2
  rw [parseRbmsgLoop.eq_def, if_pos h]
  dsimp only
  rw [if_pos (show TimestampMode.host ≠ .device by decide), hsame, if_neg (Int.not_lt.mpr hsize),
    if_neg hmax]
  by_cases hcut : remain - func.getReadPayloadSize (rbmsg.drop payload) < 0
  · rw [if_pos hcut, if_pos hcut, parseRbmsgLoop_done _ _ _ _ _ (Int.le_of_lt hcut)]
  · rw [if_neg hcut, if_neg hcut]

/-- The timestamp goes in front of what is there of a record. -/
theorem slice_overwrite_timestamp {ts : List UInt8} (hts : ts.length = timestampSize)
    {rbmsg r : List UInt8} {payload n : ℕ} (hlen : payload + n ≤ rbmsg.length)
    (hslice : slice rbmsg payload n = r.take n) :
    slice (overwrite rbmsg payload ts) payload n = (ts ++ r.drop timestampSize).take n := by
  apply List.ext_getElem?
  intro i
  have hi := congrArg (·[i]?) hslice
  simp only [getElem?_slice, List.getElem?_take] at hi
  rw [getElem?_slice, List.getElem?_take, getElem?_overwrite, hts]
  by_cases hin : i < n
  · rw [if_pos hin, if_pos hin] at hi ⊢
    by_cases hstamp : i < timestampSize
    · rw [if_pos (by omega), List.getElem?_append_left (by omega), Nat.add_sub_cancel_left]
    · rw [if_neg (by omega), List.getElem?_append_right (by omega), List.getElem?_drop, hi, hts]
      congr 1
      omega
  · rw [if_neg hin, if_neg hin]

/-- The size is that of the record in front, as soon as the byte behind its timestamp is there. -/
theorem getReadPayloadSize_of_slice {func : UniqueFunction} {rbmsg r tail : List UInt8}
    {payload n : ℕ} (hr : func.IsRecord r) (hn : timestampSize < n)
    (hslice : slice rbmsg payload n = (r ++ tail).take n) :
    func.getReadPayloadSize (rbmsg.drop payload) = r.length := by
  rw [← hr]
  apply func.size_eq
  have hcell := congrArg (·[timestampSize]?) hslice
  simp only [getElem?_slice, if_pos hn, List.getElem?_take] at hcell
  rw [List.getElem?_append_left hr.length_bounds.1] at hcell
  rw [byteAt_drop, byteAt, byteAt, List.getD_eq_getElem?_getD, List.getD_eq_getElem?_getD, hcell]

/-- The cut behind the first record is the cut in the rest. -/
theorem CutSized.tail {func : UniqueFunction} {rbmsg r : List UInt8} {payload n : ℕ}
    {records : List (List UInt8)} (h : CutSized func rbmsg payload (r :: records) n)
    (hr : timestampSize < r.length) {ts : List UInt8} (hts : ts.length = timestampSize)
    (hn : r.length ≤ n) :
    CutSized func (overwrite rbmsg payload ts) (payload + r.length) records (n - r.length) := by
  intro done cut rest heq hlt hle
  have hflat : (r :: done).flatten.length = r.length + done.flatten.length := by
    rw [List.flatten_cons, List.length_append]
  have hsize := h (r :: done) cut rest (by rw [heq, List.cons_append]) (by omega) (by omega)
  rw [hflat, ← Nat.add_assoc] at hsize
  rwa [getReadPayloadSize_congr]
  rw [getElem?_overwrite, hts, if_neg (by omega)]

theorem parseRbmsgLoop_records {func : UniqueFunction} (devTimeUs : UInt64)
    {records : List (List UInt8)} (hrecords : ∀ r ∈ records, func.IsRecord r) {n fuel payload : ℕ}
    (hfuel : n ≤ fuel) (hn : n ≤ records.flatten.length) {rbmsg : List UInt8}
    (hlen : payload + n ≤ rbmsg.length) (hslice : slice rbmsg payload n = records.flatten.take n)
    (hcut : CutSized func rbmsg payload records n) :
    ∃ rbmsg', parseRbmsgLoop func .host devTimeUs fuel payload n rbmsg = (.success, rbmsg') ∧
      rbmsg'.length = rbmsg.length ∧ (∀ k < payload, rbmsg'[k]? = rbmsg[k]?) ∧
      slice rbmsg' payload n = (stamped (hostTimestamp devTimeUs) records).take n := by
  induction records generalizing n fuel payload rbmsg with
  | nil =>
      obtain rfl : n = 0 := Nat.le_zero.mp hn
      exact ⟨rbmsg, parseRbmsgLoop_done _ _ _ _ _ (by decide) _, rfl, fun _ _ => rfl, by simp⟩
  | cons r records ih =>
      rcases Nat.eq_zero_or_pos n with rfl | hpos
      · exact ⟨rbmsg, parseRbmsgLoop_done _ _ _ _ _ (by decide) _, rfl, fun _ _ => rfl, by simp⟩
      obtain ⟨fuel, rfl⟩ : ∃ k, fuel = k + 1 := ⟨fuel - 1, by omega⟩
      have hr := hrecords r List.mem_cons_self
      have hbounds := hr.length_bounds
      have hts := length_hostTimestamp devTimeUs
      have hstamped : stamped (hostTimestamp devTimeUs) (r :: records) =
          (hostTimestamp devTimeUs ++ r.drop timestampSize) ++
            stamped (hostTimestamp devTimeUs) records := List.flatMap_cons
      have hrlen : (hostTimestamp devTimeUs ++ r.drop timestampSize).length = r.length := by
        rw [List.length_append, List.length_drop, hts]
        omega
      rw [List.flatten_cons] at hslice hn
      by_cases hwhole : r.length ≤ n
      · -- the whole record is there
        have hsize := getReadPayloadSize_of_slice hr (by omega) hslice
        have hfront : slice rbmsg payload r.length = r.take r.length := by
          have htake := congrArg (List.take r.length) hslice
          rwa [take_slice, Nat.min_eq_left hwhole, List.take_take, Nat.min_eq_left hwhole,
            List.take_append_of_le_length (Nat.le_refl _)] at htake
        have hrest : slice rbmsg (payload + r.length) (n - r.length) =
            records.flatten.take (n - r.length) := by
          rw [← drop_slice, hslice, List.drop_take, List.drop_left]
        have hrest' : slice (overwrite rbmsg payload (hostTimestamp devTimeUs))
            (payload + r.length) (n - r.length) = records.flatten.take (n - r.length) := by
          rw [slice_overwrite_of_disjoint (by rw [hts]; omega), hrest]
        obtain ⟨rbmsg', hloop, hlength, hbefore, hstamps⟩ :=
          ih (fun r hr => hrecords r (List.mem_cons_of_mem _ hr))
            (show n - r.length ≤ fuel by omega) (by rw [List.length_append] at hn; omega)
            (by rw [length_overwrite]; omega) hrest' (hcut.tail hbounds.1 hts hwhole)
        refine ⟨rbmsg', ?_, hlength.trans (length_overwrite _ _ _), ?_, ?_⟩
        · rw [parseRbmsgLoop_host _ _ _ _ (by omega) (by omega), hsize, if_neg (by omega),
            Int.toNat_natCast, ← hloop, Nat.cast_sub hwhole]
        · intro k hk
          rw [hbefore k (by omega), getElem?_overwrite, if_neg (by omega)]
        · have hfront' : slice rbmsg' payload r.length =
              hostTimestamp devTimeUs ++ r.drop timestampSize := by
            have hsame : slice rbmsg' payload r.length =
                slice (overwrite rbmsg payload (hostTimestamp devTimeUs)) payload r.length := by
              apply List.ext_getElem?
              intro i
              rw [getElem?_slice, getElem?_slice]
              by_cases hi : i < r.length
              · rw [if_pos hi, if_pos hi, hbefore _ (by omega)]
              · rw [if_neg hi, if_neg hi]
            rw [hsame, slice_overwrite_timestamp hts (by omega) hfront, ← hrlen, List.take_length]
          have hsplit := slice_append_slice rbmsg' payload r.length (n - r.length)
          rw [Nat.add_sub_cancel' hwhole] at hsplit
          have htake : (hostTimestamp devTimeUs ++ r.drop timestampSize).take n =
              hostTimestamp devTimeUs ++ r.drop timestampSize :=
            List.take_of_length_le (hrlen.trans_le hwhole)
          rw [← hsplit, hfront', hstamps, hstamped, List.take_append, hrlen, htake]
      · -- the record is cut
        have hslice' : slice rbmsg payload n = r.take n := by
          rw [hslice, List.take_append_of_le_length (by omega)]
        have hsize : (n : ℤ) < func.getReadPayloadSize (rbmsg.drop payload) := by
          by_cases hmask : timestampSize < n
          · rw [getReadPayloadSize_of_slice hr hmask hslice]
            omega
          · have hnonneg := hcut [] r records rfl hpos (by simpa using Nat.not_lt.mp hmask)
            have := func.size_bounds hnonneg
            simp only [List.flatten_nil, List.length_nil, Nat.add_zero] at this
            omega
        refine ⟨overwrite rbmsg payload (hostTimestamp devTimeUs), ?_, length_overwrite _ _ _, ?_, ?_⟩
        · rw [parseRbmsgLoop_host _ _ _ _ (by omega) (by omega), if_pos (by omega)]
        · intro k hk
          rw [getElem?_overwrite, if_neg (by omega)]
        · have hle : n ≤ (hostTimestamp devTimeUs ++ r.drop timestampSize).length := by
            rw [hrlen]
            omega
          rw [slice_overwrite_timestamp hts hlen hslice', hstamped,
            List.take_append_of_le_length hle]

/-- `apt_usbtrx_parse_rbmsg` on bytes that start with a record. -/
theorem parseRbmsg_records {func : UniqueFunction} (relativeTimeNs : UInt64)
    {records : List (List UInt8)} (hrecords : ∀ r ∈ records, func.IsRecord r) {n : ℕ}
    (hn : n ≤ records.flatten.length) {rbmsg : List UInt8} (hlen : n ≤ rbmsg.length)
    (hfront : rbmsg.take n = records.flatten.take n) (hcut : CutSized func rbmsg 0 records n) :
    ∃ rbmsg', parseRbmsg func .host rbmsg n relativeTimeNs = (.success, rbmsg') ∧
      rbmsg'.length = rbmsg.length ∧ rbmsg'.take n =
        (stamped (hostTimestamp (relativeTimeNs / nsecPerUsec)) records).take n := by
  obtain ⟨rbmsg', hloop, hlength, -, hstamps⟩ := parseRbmsgLoop_records
    (relativeTimeNs / nsecPerUsec) hrecords (Nat.le_refl n) hn (by rwa [Nat.zero_add])
    (by rwa [slice_zero]) hcut
  refine ⟨rbmsg', ?_, hlength, by rwa [slice_zero] at hstamps⟩
  rw [parseRbmsg]
  exact hloop

/-- The loop leaves what it has passed alone. -/
theorem parseRbmsgLoop_before (func : UniqueFunction) (devTimeUs : UInt64) (fuel payload : ℕ)
    (remain : ℤ) (rbmsg : List UInt8) {k : ℕ} (hk : k < payload) :
    (parseRbmsgLoop func .host devTimeUs fuel payload remain rbmsg).2[k]? = rbmsg[k]? := by
  induction fuel generalizing payload remain rbmsg with
  | zero =>
      rw [parseRbmsgLoop]
      split <;> rfl
  | succ fuel ih =>
      have hkeep : (overwrite rbmsg payload (hostTimestamp devTimeUs))[k]? = rbmsg[k]? := by
        rw [getElem?_overwrite, if_neg (by omega)]
      rw [parseRbmsgLoop]
      split
      · dsimp only
        rw [if_pos (show TimestampMode.host ≠ .device by decide)]
        split
        · exact hkeep
        · split
          · exact hkeep
          · split
            · rw [ih _ _ _ hk, hkeep]
            · rw [ih _ _ _ (by omega), hkeep]
      · rfl

/-- Whatever the bytes are, the first of them becomes the first of the host timestamp. -/
theorem parseRbmsg_first (func : UniqueFunction) {rbmsg : List UInt8} (hne : rbmsg ≠ []) {n : ℕ}
    (hpos : 0 < n) (relativeTimeNs : UInt64) :
    (parseRbmsg func .host rbmsg n relativeTimeNs).2[0]? =
      (hostTimestamp (relativeTimeNs / nsecPerUsec))[0]? := by
  have hlen := List.length_pos_of_ne_nil hne
  have hfirst : (overwrite rbmsg 0 (hostTimestamp (relativeTimeNs / nsecPerUsec)))[0]? =
      (hostTimestamp (relativeTimeNs / nsecPerUsec))[0]? := by
    rw [getElem?_overwrite, if_pos ⟨Nat.le_refl 0, by rw [length_hostTimestamp]; decide, hlen⟩]
  obtain ⟨n, rfl⟩ : ∃ m, n = m + 1 := ⟨n - 1, by omega⟩
  rw [parseRbmsg, if_pos rfl, parseRbmsgLoop, if_pos (by omega),
    if_pos (show TimestampMode.host ≠ .device by decide)]
  dsimp only
  split
  · exact hfirst
  next hsize =>
    have hbounds := func.size_bounds (Int.not_lt.mp hsize)
    split
    · exact hfirst
    · split
      next hcut => rw [parseRbmsgLoop_done _ _ _ _ _ (Int.le_of_lt hcut), hfirst]
      next => rw [parseRbmsgLoop_before _ _ _ _ _ _ (by omega), hfirst]

/-- Every byte is the first of a host timestamp. -/
theorem exists_hostTimestamp_first (b : UInt8) :
    ∃ relativeTimeNs, (hostTimestamp (relativeTimeNs / nsecPerUsec))[0]? = some b := by
  have hall : ∀ n < 256, (hostTimestamp (UInt64.ofNat (n * 1000000000) / nsecPerUsec))[0]? =
      some (UInt8.ofNat n) := by decide +kernel
  have hb := hall _ b.toNat_lt
  rw [UInt8.ofNat_toNat] at hb
  exact ⟨_, hb⟩

/-- What lies behind the bytes read decides whether a cut is sized. -/
theorem CutSized.overwrite {func : UniqueFunction} {rbmsg : List UInt8}
    {records : List (List UInt8)} {n : ℕ} (h : CutSized func rbmsg 0 records n) {data : List UInt8}
    (hdata : data.length = n) : CutSized func (overwrite rbmsg 0 data) 0 records n := by
  intro done cut rest heq hlt hle
  have hsize := h done cut rest heq hlt hle
  rwa [getReadPayloadSize_congr]
  rw [getElem?_overwrite, hdata, if_neg (by omega)]

/-- Where every payload has a size, every cut is sized. -/
theorem cutSized_of_nonneg {func : UniqueFunction} (h : ∀ p, 0 ≤ func.getReadPayloadSize p)
    (rbmsg : List UInt8) (payload : ℕ) (records : List (List UInt8)) (n : ℕ) :
    CutSized func rbmsg payload records n :=
  fun _ _ _ _ _ _ => h _

end AptUsbtrx
