import RadioAdmin.Value.Basic

/-!
# Sample configurations

Sections as nodes report them, for trying things out.
-/
namespace RadioAdmin.Samples

def device : Value :=
  .map [("role", .int 1), ("serial_enabled", .bool true), ("node_info_broadcast_secs", .int 10800)]

def lora : Value :=
  .map [("region", .int 1), ("modem_preset", .int 0), ("hop_limit", .int 3),
    ("tx_enabled", .bool true), ("tx_power", .int 20)]

/-- Keys as base64 text. -/
def security : Value :=
  .map [("public_key", .text "AQIDBA=="),
    ("admin_key", .list [.text "AQIDBA==", .text "BQYHCA=="]),
    ("is_managed", .bool false)]

/-- A channel with its key as raw bytes. -/
def channel (index : Int64) (psk : List UInt8) : Value :=
  .map [("index", .int index),
    ("role", .text "PRIMARY"),
    ("settings", .map [("name", .text "LongFast"), ("uplink_enabled", .bool false),
      ("psk", .bytes psk)])]

/-- A section under its own name. -/
def enveloped (sectionName : String) (inner : Value) : Value := .map [(sectionName, inner)]

end RadioAdmin.Samples
