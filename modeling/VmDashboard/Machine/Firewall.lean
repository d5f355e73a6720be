import Mathlib.Data.List.MinMax

/-!
# Packet filters

Of the rules that cover a flow the ones with the least priority number decide, and a deny wins among
them. Where no rule covers the flow a default decides. A filter that is written in layers is decided
by the first layer that covers the flow.
-/

namespace Firewall
variable {Flow : Type*}

structure Rule (Flow : Type*) where
  priority : ℕ
  allow : Bool
  covers : Flow → Bool

def hits (rules : List (Rule Flow)) (flow : Flow) : List (Rule Flow) := rules.filter (·.covers flow)

/-- The least priority number of a rule that covers the flow. -/
def first (rules : List (Rule Flow)) (flow : Flow) : Option ℕ :=
  ((hits rules flow).map (·.priority)).min?

def admits (rules : List (Rule Flow)) (fallback : Bool) (flow : Flow) : Bool :=
  match first rules flow with
  | none => fallback
  | some least => (hits rules flow).all fun rule => rule.priority ≠ least || rule.allow

variable {rules later : List (Rule Flow)} {fallback : Bool} {flow : Flow}

theorem first_eq_none : first rules flow = none ↔ hits rules flow = [] := by
  rw [first, List.min?_eq_none_iff, List.map_eq_nil_iff]

theorem admits_of_hits_nil (h : hits rules flow = []) : admits rules fallback flow = fallback := by
  rw [admits, first_eq_none.mpr h]

theorem hits_append : hits (rules ++ later) flow = hits rules flow ++ hits later flow :=
  List.filter_append _ _

theorem hits_eq_nil : hits rules flow = [] ↔ rules.any (·.covers flow) = false := by
  rw [hits, List.filter_eq_nil_iff, List.any_eq_false]

/-- Once a rule covers the flow, an allow admits it that comes before every deny. -/
theorem admits_eq_true (hcovered : hits rules flow ≠ []) : admits rules fallback flow = true ↔
    ∃ rule ∈ hits rules flow, rule.allow = true ∧
      ∀ other ∈ hits rules flow, other.allow = false → rule.priority < other.priority := by
  obtain ⟨least, hleast⟩ := Option.ne_none_iff_exists'.mp (mt first_eq_none.mp hcovered)
  obtain ⟨hmem, hle⟩ := List.min?_eq_some_iff.mp hleast
  have hbelow : ∀ rule ∈ hits rules flow, least ≤ rule.priority := fun rule hrule =>
    hle rule.priority (List.mem_map_of_mem hrule)
  simp only [admits, hleast, List.all_eq_true, Bool.or_eq_true, decide_eq_true_eq]
  constructor
  · intro h
    obtain ⟨rule, hrule, hpriority⟩ := List.mem_map.mp hmem
    refine ⟨rule, hrule, (h rule hrule).resolve_left fun hne => hne hpriority, fun other hother hdeny => ?_⟩
    have hne : other.priority ≠ least := (h other hother).resolve_right (by simp [hdeny])
    have hge := hbelow other hother
    omega
  · rintro ⟨rule, hrule, hallow, hdenies⟩ other hother
    rw [or_iff_not_imp_left, not_not]
    intro hpriority
    by_contra hdeny
    have hlt := hdenies other hother (Bool.eq_false_iff.mpr hdeny)
    have hge := hbelow rule hrule
    omega

/-- A layer that covers the flow decides it, and one that does not leaves it to the next. -/
theorem admits_append (hlayers : ∀ rule ∈ rules, ∀ other ∈ later, rule.priority < other.priority) :
    admits (rules ++ later) fallback flow =
      if rules.any (·.covers flow) then admits rules fallback flow else admits later fallback flow := by
  cases hany : rules.any (·.covers flow) with
  | false =>
    have hnil := hits_eq_nil.mpr hany
    have hhits : hits (rules ++ later) flow = hits later flow := by rw [hits_append, hnil, List.nil_append]
    simp only [admits, first, hhits, Bool.false_eq_true, ↓reduceIte]
  | true =>
    have hne : hits rules flow ≠ [] := fun h => by rw [hits_eq_nil.mp h] at hany; cases hany
    have hne' : hits (rules ++ later) flow ≠ [] := by
      rw [hits_append]
      exact List.append_ne_nil_of_left_ne_nil hne _
    rw [if_pos rfl, Bool.eq_iff_iff, admits_eq_true hne, admits_eq_true hne', hits_append]
    constructor
    · rintro ⟨rule, hrule, hallow, hdenies⟩
      rcases List.mem_append.mp hrule with hrule | hrule
      · exact ⟨rule, hrule, hallow, fun other hother => hdenies other (List.mem_append_left _ hother)⟩
      · -- a rule of the later layer would have to come before what the first one denies
        obtain ⟨cover, hcover⟩ := List.exists_mem_of_ne_nil _ hne
        have hlt := hlayers cover (List.mem_of_mem_filter hcover) rule (List.mem_of_mem_filter hrule)
        refine ⟨cover, hcover, ?_, fun other hother hdeny => ?_⟩
        · by_contra hdeny
          have hbefore := hdenies cover (List.mem_append_left _ hcover) (Bool.eq_false_iff.mpr hdeny)
          omega
        · have hbefore := hdenies other (List.mem_append_left _ hother) hdeny
          have hafter := hlayers other (List.mem_of_mem_filter hother) rule (List.mem_of_mem_filter hrule)
          omega
    · rintro ⟨rule, hrule, hallow, hdenies⟩
      refine ⟨rule, List.mem_append_left _ hrule, hallow, fun other hother hdeny => ?_⟩
      rcases List.mem_append.mp hother with hother | hother
      · exact hdenies other hother hdeny
      · exact hlayers rule (List.mem_of_mem_filter hrule) other (List.mem_of_mem_filter hother)

theorem admits_allows (hallow : ∀ rule ∈ rules, rule.allow = true)
    (hcovered : rules.any (·.covers flow) = true) : admits rules fallback flow = true := by
  have hne : hits rules flow ≠ [] := fun h => by rw [hits_eq_nil.mp h] at hcovered; cases hcovered
  obtain ⟨rule, hrule⟩ := List.exists_mem_of_ne_nil _ hne
  refine (admits_eq_true hne).mpr ⟨rule, hrule, hallow rule (List.mem_of_mem_filter hrule), ?_⟩
  intro other hother hdeny
  rw [hallow other (List.mem_of_mem_filter hother)] at hdeny
  cases hdeny

/-- Where nothing is denied and nothing is the default, what passes is what a rule covers. -/
theorem admits_allows_only (hallow : ∀ rule ∈ rules, rule.allow = true) :
    admits rules false flow = rules.any (·.covers flow) := by
  cases hany : rules.any (·.covers flow) with
  | true => exact admits_allows hallow hany
  | false => exact admits_of_hits_nil (hits_eq_nil.mpr hany)

theorem admits_denies (hdeny : ∀ rule ∈ rules, rule.allow = false)
    (hcovered : rules.any (·.covers flow) = true) : admits rules fallback flow = false := by
  have hne : hits rules flow ≠ [] := fun h => by rw [hits_eq_nil.mp h] at hcovered; cases hcovered
  refine Bool.eq_false_iff.mpr fun h => ?_
  obtain ⟨rule, hrule, hallow, -⟩ := (admits_eq_true hne).mp h
  rw [hdeny rule (List.mem_of_mem_filter hrule)] at hallow
  cases hallow

end Firewall
