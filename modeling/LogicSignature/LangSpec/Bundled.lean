import LogicSignature.LangSpec.Basic

/-
The bundled language specification: the one that is used when no other is configured.
-/

namespace LogicSignature.LangSpec

/-- Opcode, name, cost and size of the bundled operations. -/
def bundledRows : List (Nat × String × Nat × Nat) :=
  [(0, "err", 1, 1), (1, "sha256", 35, 1), (2, "keccak256", 130, 1), (3, "sha512_256", 45, 1),
    (4, "ed25519verify", 1900, 1), (8, "+", 1, 1), (9, "-", 1, 1), (10, "/", 1, 1),
    (11, "*", 1, 1), (12, "<", 1, 1), (13, ">", 1, 1), (14, "<=", 1, 1), (15, ">=", 1, 1),
    (16, "&&", 1, 1), (17, "||", 1, 1), (18, "==", 1, 1), (19, "!=", 1, 1), (20, "!", 1, 1),
    (21, "len", 1, 1), (22, "itob", 1, 1), (23, "btoi", 1, 1), (24, "%", 1, 1), (25, "|", 1, 1),
    (26, "&", 1, 1), (27, "^", 1, 1), (28, "~", 1, 1), (29, "mulw", 1, 1), (30, "addw", 1, 1),
    (32, "intcblock", 1, 0), (33, "intc", 1, 2), (34, "intc_0", 1, 1), (35, "intc_1", 1, 1),
    (36, "intc_2", 1, 1), (37, "intc_3", 1, 1), (38, "bytecblock", 1, 0), (39, "bytec", 1, 2),
    (40, "bytec_0", 1, 1), (41, "bytec_1", 1, 1), (42, "bytec_2", 1, 1), (43, "bytec_3", 1, 1),
    (44, "arg", 1, 2), (45, "arg_0", 1, 1), (46, "arg_1", 1, 1), (47, "arg_2", 1, 1),
    (48, "arg_3", 1, 1), (49, "txn", 1, 2), (50, "global", 1, 2), (51, "gtxn", 1, 3),
    (52, "load", 1, 2), (53, "store", 1, 2), (54, "txna", 1, 3), (55, "gtxna", 1, 4),
    (64, "bnz", 1, 3), (65, "bz", 1, 3), (66, "b", 1, 3), (67, "return", 1, 1), (72, "pop", 1, 1),
    (73, "dup", 1, 1), (74, "dup2", 1, 1), (80, "concat", 1, 1), (81, "substring", 1, 3),
    (82, "substring3", 1, 1), (96, "balance", 1, 1), (97, "app_opted_in", 1, 1),
    (98, "app_local_get", 1, 1), (99, "app_local_get_ex", 1, 1), (100, "app_global_get", 1, 1),
    (101, "app_global_get_ex", 1, 1), (102, "app_local_put", 1, 1), (103, "app_global_put", 1, 1),
    (104, "app_local_del", 1, 1), (105, "app_global_del", 1, 1), (112, "asset_holding_get", 1, 2),
    (113, "asset_params_get", 1, 2)]

/-- The name of the bundled specification in reports. -/
def bundledSource : Text := "<bundled>"

def bundled : LangSpec :=
  { evalMaxVersion := .integer 2
    logicSigVersion := .integer 2
    operations := bundledRows.map fun (opcode, name, cost, size) =>
      ⟨.integer opcode, Text.ofString name, .integer cost, .integer size⟩
    source := bundledSource }

end LogicSignature.LangSpec
