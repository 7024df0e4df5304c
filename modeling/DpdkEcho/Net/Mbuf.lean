import DpdkEcho.Net.Header

/-!
# Packet buffers

`struct rte_mbuf` as far as the program touches it. DPDK itself is outside the repository, and
what is used of it is its documented interface:

* `rte_pktmbuf_append` takes the length as a `uint16_t`, returns the old end of the data and
  fails when the tailroom is too small
* `rte_eth_rx_burst` returns at most as many packets as it was asked for
* `rte_eth_tx_burst` takes ownership of a leading part of the packets it is given

The environment chooses the packets and the counts. `rxBurst` and `txBurst` cut its choice down
to what the interface admits, so that a statement about every choice needs no side condition.
-/

namespace DpdkEcho

open Infra

/-- `struct rte_mbuf`. `id` is the identity of the buffer, that is the pointer value. -/
structure Mbuf where
  id : Nat
  data : Mem
  dataLen : Nat
  l2Len : Nat
  l3Len : Nat
  olFlags : UInt64

/-- Data room of a buffer of the pools `main` creates: `RTE_MBUF_DEFAULT_BUF_SIZE` less the
headroom. -/
def mbufDataRoom : Nat := 2048

/-- `RTE_MBUF_F_TX_IP_CKSUM | RTE_MBUF_F_TX_IPV4 | RTE_MBUF_F_TX_UDP_CKSUM` -/
def olFlagsUdp : UInt64 := 0x40000000000000 ||| 0x80000000000000 ||| 0x30000000000000
/-- `RTE_MBUF_F_TX_IP_CKSUM | RTE_MBUF_F_TX_IPV4 | RTE_MBUF_F_TX_TCP_CKSUM` -/
def olFlagsTcp : UInt64 := 0x40000000000000 ||| 0x80000000000000 ||| 0x10000000000000

/-- A buffer as `rte_pktmbuf_alloc` returns it. What its memory held before stays there. -/
def Mbuf.alloc (id : Nat) (data : Mem) : Mbuf :=
  { id := id, data := data, dataLen := 0, l2Len := 0, l3Len := 0, olFlags := 0 }

/-- `rte_pktmbuf_append`: the buffer with `len` more bytes and the offset of the first of them,
or `none` for `NULL`. The parameter is a `uint16_t`. -/
def rtePktmbufAppend (buf : Mbuf) (len : Nat) : Option (Mbuf × Nat) :=
  if mbufDataRoom - buf.dataLen < len % 2 ^ 16 then none
  else some ({ buf with dataLen := buf.dataLen + len % 2 ^ 16 }, buf.dataLen)

/-- Write through a pointer into the data of the buffer. -/
def Mbuf.write (buf : Mbuf) (f : Mem → Mem) : Mbuf := { buf with data := f buf.data }

@[simp] theorem Mbuf.write_data (buf : Mbuf) (f : Mem → Mem) :
    (buf.write f).data = f buf.data := rfl

@[simp] theorem Mbuf.write_id (buf : Mbuf) (f : Mem → Mem) : (buf.write f).id = buf.id := rfl

/-- An append of a length that fits a `uint16_t` succeeds exactly when the room suffices. -/
theorem rtePktmbufAppend_of_fits {buf : Mbuf} {len : Nat} (h : buf.dataLen + len ≤ mbufDataRoom) :
    rtePktmbufAppend buf len = some ({ buf with dataLen := buf.dataLen + len }, buf.dataLen) := by
  have hroom : mbufDataRoom = 2048 := rfl
  have hmod : len % 2 ^ 16 = len := Nat.mod_eq_of_lt (by omega)
  rw [rtePktmbufAppend, hmod, if_neg (by omega)]

/-! ## The port -/

/-- `rte_eth_rx_burst`: of the packets waiting, the first `nbPkts` at most. -/
def rxBurst {α : Type} (waiting : List α) (nbPkts : Nat) : List α := waiting.take nbPkts

/-- `rte_eth_tx_burst`: of `nbPkts` packets offered, how many the driver takes. -/
def txBurst (willing nbPkts : Nat) : Nat := min willing nbPkts

theorem txBurst_le (willing nbPkts : Nat) : txBurst willing nbPkts ≤ nbPkts := Nat.min_le_right _ _

end DpdkEcho
