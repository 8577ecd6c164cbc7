import ParkingLot.Lcd.Calls
import ParkingLot.Accounting
import ParkingLot.Display
import Mathlib.Tactic.IntervalCases

/-!
# The message on the display

What can be read on the two lines of the display while main waits: for a card, for the car, or for
the driver to read that the lot is full or the card is not known.

* `TextLCD.Reads`, `Screen.reads_write`: the two lines that a screen leaves.
* `Message`, `PC.writes`, `PC.messages`: the messages of main, where it writes them and where it
  leaves them on the display.
* `Pressed`, `Garbles`: a press of the button that `register_ISR` handles, and one while main writes.
* `Painted`: the display is as main left it.
* **`message_shown`**: what can be read wherever main does not write.
-/

namespace ParkingLot

open Machine

/-! ## Lines -/

def Screen.line (s : Screen) (row : ℕ) : String := if row = 0 then s.top else s.bottom

/-- The two lines of the display are those of the screen, with blanks after them. -/
def TextLCD.Reads (l : TextLCD) (s : Screen) : Prop :=
  ∀ (i : Fin 16) (j : Fin 2), (l.text.get j).get i = (s.line j).toList.getD i ' '

/-- Both lines of the screen fit. -/
structure Screen.Fits (s : Screen) : Prop where
  top_le : s.top.toList.length ≤ 16
  bottom_le : s.bottom.toList.length ≤ 16
  top_line : '\n' ∉ s.top.toList
  bottom_line : '\n' ∉ s.bottom.toList

namespace TextLCD

/-- **A string that fits in the line** goes to the cells from the cursor on. -/
theorem get_printed {cs : List Char} (hcs : '\n' ∉ cs) (l : TextLCD)
    (hlen : l.column + cs.length ≤ 16) (i : Fin 16) (j : Fin 2) :
    ((cs.foldl putc l).text.get j).get i =
      if j = l.row ∧ (l.column : ℕ) ≤ i ∧ (i : ℕ) < l.column + cs.length then
        cs.getD (i - l.column : ℕ) ' '
      else (l.text.get j).get i := by
  induction cs generalizing l with
  | nil =>
    rw [if_neg]
    · rfl
    · rintro ⟨-, h1, h2⟩
      exact absurd h2 (Nat.not_lt.mpr h1)
  | cons c cs ih =>
    rw [List.mem_cons, not_or] at hcs
    rw [List.length_cons] at hlen ⊢
    have hput : l.putc c =
        { text := l.text.set l.row ((l.text.get l.row).set l.column c)
          column := l.column + 1
          row := if l.column = 15 then l.row + 1 else l.row } := if_neg (Ne.symm hcs.1)
    have hhead : ((l.putc c).text.get j).get i =
        if i = l.column ∧ j = l.row then c else (l.text.get j).get i := by
      rw [hput]
      exact get_set l.text l.row j l.column i c
    have hrest : (((c :: cs).foldl putc l).text.get j).get i =
        if j = l.row ∧ (l.column : ℕ) + 1 ≤ i ∧ (i : ℕ) < l.column + 1 + cs.length then
          cs.getD (i - (l.column + 1)) ' '
        else ((l.putc c).text.get j).get i := by
      by_cases hlast : (l.column : ℕ) = 15
      · rw [List.length_eq_zero_iff.mp (show cs.length = 0 by omega),
          if_neg fun h => by rw [List.length_nil] at h; omega]
        rfl
      · have hcol : ((l.putc c).column : ℕ) = l.column + 1 := by
          have := l.column.isLt
          rw [hput]
          exact (val_succ l.column).trans (if_neg (by omega))
        have hrow : (l.putc c).row = l.row := by
          rw [hput]
          exact if_neg fun h => hlast (congrArg Fin.val h)
        rw [List.foldl_cons, ih hcs.2 (l.putc c) (by omega), hrow]
        exact if_congr (by rw [hcol]) (by rw [hcol]) rfl
    rw [hrest, hhead]
    by_cases hi : i = l.column ∧ j = l.row
    · rw [if_neg fun h => by have := congrArg Fin.val hi.1; omega, if_pos hi,
        if_pos ⟨hi.2, by rw [hi.1], by rw [hi.1]; omega⟩, hi.1, Nat.sub_self]
      rfl
    · by_cases h : j = l.row ∧ (l.column : ℕ) + 1 ≤ i ∧ (i : ℕ) < l.column + 1 + cs.length
      · rw [if_pos h, if_pos ⟨h.1, by omega, by omega⟩,
          show (i : ℕ) - l.column = i - (l.column + 1) + 1 by omega]
        rfl
      · rw [if_neg h, if_neg hi, if_neg]
        rintro ⟨h1, h2, h3⟩
        have : (i : ℕ) ≠ l.column := fun he => hi ⟨Fin.ext he, h1⟩
        exact h ⟨h1, by omega, by omega⟩

end TextLCD

theorem getD_blank (cs : List Char) (i : ℕ) :
    (if i < cs.length then cs.getD i ' ' else ' ') = cs.getD i ' ' := by
  split_ifs with h
  · rfl
  · exact (List.getD_eq_default _ _ (Nat.not_lt.mp h)).symm

/-- **A screen that fits can be read**, whatever was on the display. -/
theorem Screen.reads_write {s : Screen} (hs : s.Fits) (l : TextLCD) : (s.write l).Reads s := by
  have hblank : ∀ (i : Fin 16) (j : Fin 2), (TextLCD.blank.text.get j).get i = ' ' := by decide
  have htop := TextLCD.get_printed hs.top_line TextLCD.blank
    ((Nat.zero_add _).le.trans hs.top_le)
  have hbottom := TextLCD.get_printed hs.bottom_line ((TextLCD.blank.printf s.top).locate 0 1)
    ((Nat.zero_add _).le.trans hs.bottom_le)
  intro i j
  have hrow : ∀ j : Fin 2, j = 0 ∨ j = 1 := by decide
  rcases hrow j with rfl | rfl
  · refine (hbottom i 0).trans ((if_neg fun h => Fin.zero_ne_one h.1).trans
      ((htop i 0).trans ?_))
    rw [hblank]
    refine Eq.trans ?_ (getD_blank s.top.toList i)
    exact if_congr (by simp [TextLCD.blank]) rfl rfl
  · refine (hbottom i 1).trans ?_
    have hother : (((TextLCD.blank.printf s.top).locate 0 1).text.get 1).get i = ' ' :=
      (htop i 1).trans ((if_neg fun h => Fin.zero_ne_one h.1.symm).trans (hblank i 1))
    rw [hother]
    refine Eq.trans ?_ (getD_blank s.bottom.toList i)
    exact if_congr (by simp [TextLCD.locate]) rfl rfl

/-! ## Messages -/

/-- What main tells the driver. -/
inductive Message
  | welcome | grantAccess | parkFull | intruder
  deriving DecidableEq, Repr

/-- The screen of a message, with `n` free spots. -/
def Message.screen (n : ℤ) : Message → Screen
  | .welcome => lcdWelcome n
  | .grantAccess => lcdGrantAccess
  | .parkFull => lcdParkFull
  | .intruder => lcdIntruder

theorem Message.fits {n : ℤ} (h0 : 0 ≤ n) (hn : n ≤ numberOfParkSpots) (w : Message) :
    (w.screen n).Fits := by
  rw [numberOfParkSpots] at hn
  cases w
  case welcome => interval_cases n <;> constructor <;> decide +kernel
  case grantAccess =>
    show lcdGrantAccess.Fits
    constructor <;> decide +kernel
  case parkFull =>
    show lcdParkFull.Fits
    constructor <;> decide +kernel
  case intruder =>
    show lcdIntruder.Fits
    constructor <;> decide +kernel

/-- The message that a statement belongs to which writes it, and the statement. -/
def PC.writes : PC → Option (Message × ScreenPoint)
  | .initLcd p | .loopLcd p | .closeLcd p | .denyWelcome p => some (.welcome, p)
  | .openLcd p => some (.grantAccess, p)
  | .fullLcd p => some (.parkFull, p)
  | .denyLcd p => some (.intruder, p)
  | _ => none

/-- The messages that main may have left on the display, where it does not write. -/
def PC.messages : PC → List Message
  | .gateCalibrate | .gateWait | .gateInitClose | .newCard | .pollWait | .readCard
  | .idClear | .idTest | .idSprintf | .idAppend | .idIncr
  | .scanInit | .scanTest | .scanCompare | .scanIncr
  | .openGuard | .openCountInit | .openReset | .openStart | .openLed _ | .openGate
  | .denyLed _ | .denyGate => [.welcome]
  | .openDist | .openTimer | .openNear | .openRead | .openIf | .openBlue _ | .openLoad | .openStore
  | .openCount | .openStop => [.grantAccess]
  | .fullWait => [.parkFull]
  | .afterOpen | .closeLed _ | .closeGate => [.grantAccess, .parkFull]
  | .denyWait => [.intruder]
  | _ => []

/-- The points at which main begins to write a message. -/
def PC.Clears (p : PC) : Prop := p.writes.map Prod.snd = some .cls

instance (p : PC) : Decidable p.Clears := inferInstanceAs (Decidable (_ = _))

theorem not_clears_of_none {p : PC} (hp : p.writes = none) : ¬ p.Clears := by
  rw [PC.Clears, hp]
  exact (Option.some_ne_none _).symm

theorem mainCalls_eq (m : Main) (g : Globals) :
    mainCalls m g =
      match m.pc.writes with
      | some (w, k) => [(w.screen g.avaliableSpots).call k]
      | none => [] := by
  unfold mainCalls PC.writes
  cases m.pc <;> rfl

/-- The statement after a statement of a function that writes a screen. -/
def ScreenPoint.after : ScreenPoint → ScreenPoint
  | .cls => .top
  | .top => .locate
  | .locate => .bottom
  | .bottom => .cls

/-- Main has a message to leave or to write from here on. -/
def PC.Shows (p : PC) : Prop := p.writes = none → p.messages ≠ []

instance (p : PC) : Decidable p.Shows := inferInstanceAs (Decidable (_ → _))

theorem flow_shows : ∀ p : PC, p.Shows → ∀ q ∈ p.flow, q.Shows := by decide +kernel

/-- Main leaves a message where it is, or begins to write the next one. -/
theorem flow_messages : ∀ p : PC, p.writes = none → p.Shows → ∀ q ∈ p.flow,
    q.Clears ∨ q.writes = none ∧ ∀ w ∈ p.messages, w ∈ q.messages := by decide +kernel

/-- Main writes a message to its end. -/
theorem flow_writes : ∀ p : PC, ∀ q ∈ p.flow, ∀ x ∈ p.writes.toList,
    x.2 ≠ .bottom ∧ q.writes = some (x.1, x.2.after) ∨
      x.2 = .bottom ∧ (q.Clears ∨ q.writes = none ∧ x.1 ∈ q.messages) := by decide +kernel

/-! ## Presses -/

/-- A press of the button that `register_ISR` handles. -/
def Pressed (t : Main × Globals) : Label → Prop
  | .inr (.register s) => t.2.cardRise ∧ s.Handled
  | _ => False

instance (t : Main × Globals) (a : Label) : Decidable (Pressed t a) :=
  match a with
  | .inr (.register s) => inferInstanceAs (Decidable (t.2.cardRise ∧ s.Handled))
  | .inr (.fish _) => instDecidableFalse
  | .inl _ => instDecidableFalse

/-- A press that is handled while main is writing a message. -/
def Garbles (t : Main × Globals) (a : Label) : Prop :=
  Pressed t a ∧ t.1.pc.writes ≠ none ∧ ¬ t.1.pc.Clears

instance (t : Main × Globals) (a : Label) : Decidable (Garbles t a) :=
  inferInstanceAs (Decidable (_ ∧ _))

theorem lcd_handle {t : Main × Globals} {h : Handler} (ht : ¬ Pressed t (.inr h)) :
    (handle t.2 h).lcd = t.2.lcd := by
  obtain pin | s := h
  · rw [handle_fish]
    split_ifs <;> rfl
  · rw [handle_register_lcd]
    exact if_neg ht

theorem spots_handle (g : Globals) (h : Handler) :
    g.avaliableSpots ≤ (handle g h).avaliableSpots := by
  obtain pin | s := h
  · rw [handle_fish]
    split_ifs
    · exact (Int.lt_succ _).le
    · exact le_rfl
  · exact (handle_register_spots g s).ge

/-! ## The message -/

/-- The display before a statement of a function that writes a screen. -/
def Screen.upTo (s : Screen) : ScreenPoint → TextLCD
  | .cls | .top => .blank
  | .locate => TextLCD.blank.printf s.top
  | .bottom => (TextLCD.blank.printf s.top).locate 0 1

/-- A statement that writes a message goes on from what was written so far, for `n` free spots. -/
theorem Message.stmt_upTo {w : Message} {n : ℤ} {l : TextLCD} {k : ScreenPoint}
    (h : k = .cls ∨ l = (w.screen n).upTo k) (n' : ℤ) :
    ∃ i, (i = n ∨ i = n') ∧ (w.screen n').stmt l k =
      if k = .bottom then (w.screen i).write .blank else (w.screen i).upTo k.after := by
  cases k with
  | cls => exact ⟨n', Or.inr rfl, rfl⟩
  | top =>
    rw [h.resolve_left (by decide)]
    exact ⟨n', Or.inr rfl, rfl⟩
  | locate =>
    rw [h.resolve_left (by decide)]
    exact ⟨n, Or.inl rfl, rfl⟩
  | bottom =>
    have hbottom : (w.screen n').bottom = (w.screen n).bottom := by cases w <;> rfl
    rw [h.resolve_left (by decide), Screen.stmt, hbottom]
    exact ⟨n, Or.inl rfl, rfl⟩

/-- With `n` free spots the display is as main left it: written so far, or with a message of main or
of `others` on it. -/
def Left (others : List Message) (n : ℤ) (p : PC) (l : TextLCD) : Prop :=
  match p.writes with
  | some (w, k) => k = .cls ∨ l = (w.screen n).upTo k
  | none => ∃ w ∈ p.messages ++ others, l = (w.screen n).write .blank

theorem Left.of_clears {others : List Message} {n : ℤ} {p : PC} {l : TextLCD} (h : p.Clears) :
    Left others n p l := by
  obtain ⟨⟨w, k⟩, hp, hk⟩ := Option.map_eq_some_iff.mp h
  rw [Left, hp]
  exact Or.inl hk

theorem Left.of_none {others : List Message} {n : ℤ} {p : PC} {l : TextLCD} {w : Message}
    (hp : p.writes = none) (hw : w ∈ p.messages ++ others) (hl : l = (w.screen n).write .blank) :
    Left others n p l := by
  rw [Left, hp]
  exact ⟨w, hw, hl⟩

/-- Main goes on from what it left. -/
theorem left_mainStep {others : List Message} {n : ℤ} {m : Main} {g : Globals} (e : Env)
    (hs : m.pc.Shows) (h : Left others n m.pc g.lcd) :
    ∃ i, (i = n ∨ i = g.avaliableSpots) ∧
      Left others i (mainStep m g e).1.pc (mainStep m g e).2.lcd := by
  have hflow := mainStep_flow m g e
  have hlcd := mainStep_lcd m g e
  rw [mainCalls_eq] at hlcd
  unfold Left at h
  rcases hp : m.pc.writes with _ | ⟨w, k⟩ <;> rw [hp] at h hlcd
  · obtain ⟨w, hw, hl⟩ := h
    refine ⟨n, Or.inl rfl, ?_⟩
    rcases flow_messages _ hp hs _ hflow with hq | ⟨hq, hsub⟩
    · exact Left.of_clears hq
    · refine Left.of_none (w := w) hq ?_ (hlcd.trans hl)
      exact List.mem_append.mpr ((List.mem_append.mp hw).imp_left (hsub w))
  · obtain ⟨i, hi, hstmt⟩ := Message.stmt_upTo h g.avaliableSpots
    refine ⟨i, hi, ?_⟩
    rw [hlcd]
    show Left others i _ (g.lcd.call _)
    rw [← Screen.stmt_eq_call, hstmt]
    rcases flow_writes _ _ hflow (w, k) (by rw [hp]; exact List.mem_singleton.mpr rfl) with
      ⟨hk, hq⟩ | ⟨hk, hq | ⟨hq, hw⟩⟩
    · rw [if_neg hk, Left, hq]
      exact Or.inr rfl
    · exact Left.of_clears hq
    · rw [if_pos hk]
      exact Left.of_none hq (List.mem_append_left _ hw) rfl

/-- The display is as main left it. If there are no others, the number of free spots on it is not too
high. -/
structure Painted (others : List Message) (t : Main × Globals) : Prop where
  bounds : InBounds t.1 t.2
  shows : t.1.pc.Shows
  lcd : ∃ n, 0 ≤ n ∧ n ≤ numberOfParkSpots ∧ (others = [] → n ≤ t.2.avaliableSpots) ∧
    Left others n t.1.pc t.2.lcd

theorem painted_mainStep {others : List Message} {m : Main} {g : Globals} (e : Env)
    (h : Painted others (m, g)) : Painted others (mainStep m g e) := by
  obtain ⟨n, h0, hn, hle, hl⟩ := h.lcd
  have hb := inBounds_mainStep e h.bounds
  refine ⟨hb, mainStep_keeps flow_shows g e h.shows, ?_⟩
  by_cases hstore : m.pc = .openStore ∧ others = []
  -- the number of free spots gets smaller, but it is not on the display
  · obtain ⟨hpc, rfl⟩ := hstore
    rw [Left, hpc] at hl
    obtain ⟨w, hw, hl⟩ := hl
    obtain rfl := List.mem_singleton.mp hw
    have hq : (mainStep m g e).1.pc = .openCount := by rw [mainStep_pc, hpc]; rfl
    have hlcd : (mainStep m g e).2.lcd = g.lcd := by rw [mainStep_lcd, mainCalls_eq, hpc]; rfl
    refine ⟨0, le_rfl, by decide, fun _ => hb.nonneg, ?_⟩
    rw [hq, hlcd, hl]
    exact Left.of_none rfl (List.mem_singleton.mpr rfl) rfl
  · obtain ⟨i, hi, hl'⟩ := left_mainStep e h.shows hl
    have hspots : others = [] → (mainStep m g e).2.avaliableSpots = g.avaliableSpots :=
      fun ho => mainStep_avaliableSpots_of_ne g e h.bounds.started.2 fun hpc => hstore ⟨hpc, ho⟩
    rcases hi with rfl | rfl
    · exact ⟨i, h0, hn, fun ho => (hspots ho).symm ▸ hle ho, hl'⟩
    · exact ⟨_, h.bounds.nonneg, h.bounds.le, fun ho => (hspots ho).ge, hl'⟩

/-- **Nothing but a handled press takes a message of main off the display.** -/
theorem painted_next {others : List Message} (t : Main × Globals) (a : Label) (ha : ¬ Pressed t a)
    (h : Painted others t) : Painted others (next t a) := by
  obtain ⟨m, g⟩ := t
  obtain e | k := a
  · rw [next_main]
    exact painted_mainStep e h
  · obtain ⟨n, h0, hn, hle, hl⟩ := h.lcd
    rw [next_handler]
    refine ⟨inBounds_handle k h.bounds, h.shows, n, h0, hn,
      fun ho => (hle ho).trans (spots_handle g k), ?_⟩
    rw [lcd_handle ha]
    exact hl

/-- A handled press leaves the welcome message, unless main is writing. -/
theorem painted_pressed {t : Main × Globals} {a : Label} (ha : Pressed t a) (hg : ¬ Garbles t a)
    (hb : InBounds t.1 t.2) (hs : t.1.pc.Shows) : Painted [.welcome] (next t a) := by
  obtain ⟨m, g⟩ := t
  obtain e | pin | s := a
  · exact ha.elim
  · exact ha.elim
  · rw [next_handler]
    refine ⟨inBounds_handle (.register s) hb, hs, g.avaliableSpots, hb.nonneg, hb.le,
      fun ho => absurd ho (List.cons_ne_nil _ _), ?_⟩
    by_cases hp : m.pc.writes = none
    · refine Left.of_none hp (List.mem_append_right _ (List.mem_singleton.mpr rfl)) ?_
      rw [handle_register_lcd]
      exact if_pos ha
    · exact Left.of_clears (not_not.mp fun hc => hg ⟨ha, hp, hc⟩)

/-- **The display says what main last had to say.** Main begins to write a message, and no press of
the button is handled while it writes this one or a later one. Then, wherever main does not write, the
two lines read a message that main has left there, and a number of free spots on them is not too
high. If a press was handled since, they may also read the welcome message. -/
theorem message_shown (s : LotEntry) (as : List Label) {post : List Label}
    (has : (run next s.state as).1.pc.Clears)
    (hpost : Legal next (fun t a => ¬ Garbles t a) (run next s.state as) post)
    (hend : (run next s.state (as ++ post)).1.pc.writes = none) :
    ∃ n w, 0 ≤ n ∧ n ≤ numberOfParkSpots ∧
      (run next s.state (as ++ post)).2.lcd.Reads (w.screen n) ∧
      (w ∈ (run next s.state (as ++ post)).1.pc.messages ∧
          n ≤ (run next s.state (as ++ post)).2.avaliableSpots ∨
        w = .welcome ∧ ¬ Legal next (fun t a => ¬ Pressed t a) (run next s.state as) post) := by
  have hshows : (run next s.state as).1.pc.Shows := fun hw _ => not_clears_of_none hw has
  rw [run_append] at hend ⊢
  by_cases hpress : Legal next (fun t a => ¬ Pressed t a) (run next s.state as) post
  · have h0 : Painted [] (run next s.state as) :=
      ⟨inBounds_run s as, hshows, 0, le_rfl, by decide, fun _ => (inBounds_run s as).nonneg,
        Left.of_clears has⟩
    obtain ⟨-, -, n, hn0, hn, hle, hl⟩ := legal_induction painted_next h0 hpress
    rw [Left, hend] at hl
    obtain ⟨w, hw, hl⟩ := hl
    rw [List.append_nil] at hw
    refine ⟨n, w, hn0, hn, ?_, Or.inl ⟨hw, hle rfl⟩⟩
    rw [hl]
    exact Screen.reads_write (Message.fits hn0 hn w) .blank
  -- from the last handled press on
  · obtain ⟨pre, a, tail, rfl, ha, htail⟩ := (legal_or_last _ _ _).resolve_left hpress
    have hb := inBounds_run s (as ++ pre)
    rw [run_append] at hb
    have hs : (run next (run next s.state as) pre).1.pc.Shows :=
      Preempted.run_keeps (P := lot) (I := fun m _ => m.pc.Shows)
        (fun m g e h => mainStep_keeps flow_shows g e h) (fun m g h => id) hshows pre
    rw [legal_append, legal_cons] at hpost
    rw [run_append, run_cons] at hend ⊢
    obtain ⟨-, -, n, hn0, hn, -, hl⟩ :=
      legal_induction painted_next (painted_pressed ha hpost.2.1 hb hs) htail
    have hend0 := inBounds_run s (as ++ (pre ++ a :: tail))
    rw [run_append, run_append, run_cons] at hend0
    rw [Left, hend] at hl
    obtain ⟨w, hw, hl⟩ := hl
    by_cases hwelcome : w = .welcome
    · refine ⟨n, w, hn0, hn, ?_, Or.inr ⟨hwelcome, hpress⟩⟩
      rw [hl]
      exact Screen.reads_write (Message.fits hn0 hn w) .blank
    · refine ⟨0, w, le_rfl, by decide, ?_, Or.inl ⟨?_, hend0.nonneg⟩⟩
      · have hscreen : w.screen n = w.screen 0 := by
          cases w <;> first | exact absurd rfl hwelcome | rfl
        rw [hl, hscreen]
        exact Screen.reads_write (Message.fits le_rfl (by decide) w) .blank
      · exact (List.mem_append.mp hw).resolve_right fun h => hwelcome (List.mem_singleton.mp h)

/-- Main writes the first screen, the button is pressed while it calibrates the gate, and a car
enters. -/
def firstCar : List Label :=
  stay 4 0 0 ++ [.inr (.register timedOut)] ++ stay 3 0 0 ++ approach ++ enter

theorem message_shown_first_car :
    let t := run next (LotEntry.boot { distance := 100 }).state (stay 8 0 0 ++ firstCar)
    ∃ n w, 0 ≤ n ∧ n ≤ numberOfParkSpots ∧ t.2.lcd.Reads (Message.screen n w) ∧
      (w ∈ t.1.pc.messages ∧ n ≤ t.2.avaliableSpots ∨
        w = .welcome ∧ ¬ Legal next (fun t a => ¬ Pressed t a)
          (run next (LotEntry.boot { distance := 100 }).state (stay 8 0 0)) firstCar) :=
  message_shown (LotEntry.boot { distance := 100 }) (stay 8 0 0) (by decide +kernel)
    (by decide +kernel) (by decide +kernel)

end ParkingLot
