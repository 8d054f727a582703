import AsmDialect.Profile.Basic
/-!
# Descriptions of profiles

The line that describes a profile has fixed words between its five parts. The texts that can stand
for a part are all different, and none of them opens another one, so the parts can be read off the
line from left to right. Main statement: two profiles are the same if their lines are
(`describe_injective`).
-/

namespace AsmDialect

/-- Whether no text of a family opens the text of another member. -/
def PrefixFree {α : Type} (text : α → String) : Prop :=
  ∀ a b, (text a).toList <+: (text b).toList → a = b

/-- Where no text opens another one, what comes first in a line can be told from the line. -/
theorem PrefixFree.append_inj {α : Type} {text : α → String} (h : PrefixFree text) {a b : α}
    {x y : String} (heq : text a ++ x = text b ++ y) : a = b ∧ x = y := by
  have hlists : (text a).toList ++ x.toList = (text b).toList ++ y.toList := by
    rw [← String.toList_append, heq, String.toList_append]
  have hab : a = b := by
    rcases List.prefix_or_prefix_of_prefix ⟨_, hlists⟩ ⟨_, rfl⟩ with hpre | hpre
    · exact h a b hpre
    · exact (h b a hpre).symm
  subst hab
  exact ⟨rfl, String.toList_inj.1 (List.append_cancel_left hlists)⟩

theorem prefixFree_describe_isa : PrefixFree (Coded.describe : Isa → String) := by
  intro a b
  cases a <;> cases b <;> decide

theorem prefixFree_describe_dialect : PrefixFree (Coded.describe : Dialect → String) := by
  intro a b
  cases a <;> cases b <;> decide

theorem prefixFree_describe_width : PrefixFree (Coded.describe : OperandWidth → String) := by
  intro a b
  cases a <;> cases b <;> decide

namespace Profile

theorem prefixFree_truthText : PrefixFree truthText := by
  intro a b
  cases a <;> cases b <;> decide

theorem toString_text (t : String) : toString t = t := rfl

/-- **The line tells profiles apart.** -/
theorem describe_injective {p q : Profile} (h : p.describe = q.describe) : p = q := by
  rcases p with ⟨isa, vfp, dialect, width, x87⟩
  rcases q with ⟨isa', vfp', dialect', width', x87'⟩
  unfold describe at h
  simp only [toString_text, String.append_assoc, String.append_right_inj] at h
  obtain ⟨hisa, h⟩ := prefixFree_describe_isa.append_inj h
  rw [String.append_right_inj] at h
  obtain ⟨hvfp, h⟩ := prefixFree_truthText.append_inj h
  rw [String.append_right_inj, String.append_right_inj] at h
  obtain ⟨hdialect, h⟩ := prefixFree_describe_dialect.append_inj h
  rw [String.append_right_inj] at h
  obtain ⟨hwidth, h⟩ := prefixFree_describe_width.append_inj h
  rw [String.append_right_inj, String.append_right_inj] at h
  obtain ⟨hx87, -⟩ := prefixFree_truthText.append_inj h
  subst hisa hvfp hdialect hwidth hx87
  rfl

/-- All that a line shows. -/
example : ({ dialect := .att, width := .qword } : Profile).describe =
    "Classification(isa=<InstructionSetArchitecture.X86: 0>, has_vfp_instructions=False, " ++
      "x86_flavor=<X86Flavor.ATT: 1>, x86_operand_width=<OperandWidth.QWORD: 64>, " ++
      "has_x87_instructions=False)" := rfl

end Profile

end AsmDialect
